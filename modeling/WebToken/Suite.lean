import WebToken.Error

/-!
Suites: which algorithms make or open a token. A suite without a signature algorithm does not sign,
and one that lacks either half of the encryption does not encrypt. A suite may also ask to take an
algorithm from the key, which tells nothing when a token is made.
-/

namespace WebToken

structure Suite where
  signature : Option SignatureAlgorithm := none
  keyManagement : Option KeyAlgorithm := none
  content : Option ContentEncryption := none
  /-- The signature algorithm is the one that the verification key declares. -/
  signatureFromKey : Bool := false
  /-- The key management algorithm is the one that the decryption key declares. -/
  keyManagementFromKey : Bool := false
  deriving DecidableEq, Repr

/-- The seconds in which the two stages of a token look for their keys. Each stage reads the clock by itself. -/
structure Seconds where
  signature : Int
  encryption : Int
  deriving DecidableEq, Repr

def requireName {α : Type} (registry : Registry) (ofName? : String → Option α) (name : String) :
    Except Error α :=
  require (.unregistered registry) (ofName? name)

def optionalName {α : Type} (registry : Registry) (ofName? : String → Option α) (name : String) :
    Except Error (Option α) :=
  if namesNone name then .ok none else some <$> requireName registry ofName? name

def readName {α : Type} (registry : Registry) (ofName? : String → Option α) (node : Json.Node) :
    Except (Json.Refusal Registry) α :=
  match node.text with
  | .error fault => .error (.text fault)
  | .ok name =>
      match ofName? name with
      | some algorithm => .ok algorithm
      | none => .error (.content registry)

def SignatureAlgorithm.ofName (name : String) : Except Error SignatureAlgorithm :=
  requireName .signature ofName? name

def KeyAlgorithm.ofName (name : String) : Except Error KeyAlgorithm :=
  requireName .keyManagement ofName? name

def ContentEncryption.ofName (name : String) : Except Error ContentEncryption :=
  requireName .contentEncryption ofName? name

def SignatureAlgorithm.ofText (text : String) : Except (Json.Refusal Registry) SignatureAlgorithm :=
  Json.readFrom .ended (readName .signature ofName?) (Bytes.ofText text)

def KeyAlgorithm.ofText (text : String) : Except (Json.Refusal Registry) KeyAlgorithm :=
  Json.readFrom .ended (readName .keyManagement ofName?) (Bytes.ofText text)

def ContentEncryption.ofText (text : String) : Except (Json.Refusal Registry) ContentEncryption :=
  Json.readFrom .ended (readName .contentEncryption ofName?) (Bytes.ofText text)

namespace Suite

def empty : Suite := {}

def signed (algorithm : SignatureAlgorithm) : Suite := { signature := some algorithm }

def encrypted (algorithm : KeyAlgorithm) (content : ContentEncryption) : Suite :=
  { keyManagement := some algorithm, content := some content }

def signedByKey : Suite := { signatureFromKey := true }

def encryptedByKey : Suite := { keyManagementFromKey := true }

def withEncryptionByKey (suite : Suite) : Suite := { suite with keyManagementFromKey := true }

def withEncryption (suite : Suite) (algorithm : KeyAlgorithm) (content : ContentEncryption) : Suite :=
  { suite with keyManagement := some algorithm, content := some content }

/-- The suite with three names, each of which may stand for no algorithm. -/
def ofNames (signature keyManagement content : String) : Except Error Suite := do
  let signature ← optionalName .signature SignatureAlgorithm.ofName? signature
  let keyManagement ← optionalName .keyManagement KeyAlgorithm.ofName? keyManagement
  let content ← optionalName .contentEncryption ContentEncryption.ofName? content
  return { signature, keyManagement, content }

def signs (suite : Suite) : Bool := suite.signature.isSome || suite.signatureFromKey

def encrypts (suite : Suite) : Bool :=
  (suite.keyManagement.isSome && suite.content.isSome) || suite.keyManagementFromKey

end Suite

end WebToken
