import WebToken.Claims.Map
import WebToken.Claims.Standard
import WebToken.Jwe
import WebToken.Jws
import WebToken.Suite
import WebToken.Key.Set

/-!
Opening tokens: decrypt, then verify. A key is looked up by the identifier in the header if there is
one, and only then by algorithm. A suite pins the algorithms that the headers must name, or asks the
key for them.
-/

namespace WebToken.Token

def findKey? (set : KeySet) (header : Header) (use : KeyUse) (second : Int) : Option Key :=
  match header.keyId? with
  | some id => set.byId? id
  | none => if header.alg.isEmpty then none else set.select? use header.alg second

/-- A key that declares an algorithm serves no other one. -/
def checkDeclared (key : Key) (header : Header) : Except Error Unit :=
  if key.algorithm.isEmpty || key.algorithm == header.alg then .ok ()
  else .error (.algorithmMismatch key.algorithm header.alg)

def requireDeclared (key : Key) (header : Header) : Except Error Unit :=
  if key.algorithm.isEmpty then .error (.invalidKey (.declaresNothing key.id header.alg))
  else checkDeclared key header

/-- Checks the algorithm that a key declares, which must be there if the key is asked for it. -/
def checkKey (fromKey : Bool) (key : Key) (header : Header) : Except Error Unit :=
  if fromKey then requireDeclared key header else checkDeclared key header

def checkName (expected found : String) : Except Error Unit :=
  if found = expected then .ok () else .error (.algorithmMismatch expected found)

/-- Checks the algorithms of an encrypted token, unless the key is asked for them. -/
def checkEncryption (hint : Suite) (header : Header) : Except Error Unit :=
  if hint.keyManagementFromKey then .ok ()
  else do
    checkName ((hint.keyManagement.map KeyAlgorithm.name).getD "") header.alg
    checkName ((hint.content.map ContentEncryption.name).getD "") (header.enc.getD "")

/-- Checks the algorithm of a signed token, unless the key is asked for it. -/
def checkSignature (hint : Suite) (header : Header) : Except Error Unit :=
  if hint.signatureFromKey then .ok ()
  else checkName ((hint.signature.map SignatureAlgorithm.name).getD "") header.alg

def decryptStage (token : String) (keys : KeySet) (hint : Suite) (second : Int) (draws : Draws) :
    Except Error Bytes := do
  let jwe ← (Jwe.parse token).mapError .invalidToken
  checkEncryption hint jwe.header
  let key ← require .noDecryptionKey (findKey? keys jwe.header .encryption second)
  checkKey hint.keyManagementFromKey key jwe.header
  jwe.decrypt key draws

def verifyStage (token : Bytes) (keys : KeySet) (hint : Suite) (second : Int) :
    Except Error Bytes := do
  let text ← require (.invalidToken .signedNotUtf8) (Utf8.decode? token)
  let jws ← (Jws.parse text).mapError .invalidToken
  checkSignature hint jws.header
  let key ← require .noVerificationKey (findKey? keys jws.header .signature second)
  checkKey hint.signatureFromKey key jws.header
  jws.verify key.toPublic

/-- The payload of a token: undoes the stages that a suite asks for, each in its own second. -/
def decodeBytes (token : String) (verification decryption : KeySet) (hint : Suite) (seconds : Seconds)
    (draws : Draws) : Except Error Bytes := do
  let bytes ←
    if hint.encrypts then decryptStage token decryption hint seconds.encryption draws
    else .ok (Bytes.ofText token)
  if hint.signs then verifyStage bytes verification hint seconds.signature else .ok bytes

def decode {α : Type} (reader : Bytes → Except Json.Fault α) (token : String)
    (verification decryption : KeySet) (hint : Suite) (seconds : Seconds) (draws : Draws) :
    Except Error α := do
  let bytes ← decodeBytes token verification decryption hint seconds draws
  (reader bytes).mapError .payload

def decodeValue (token : String) (verification decryption : KeySet) (hint : Suite) (seconds : Seconds)
    (draws : Draws) : Except Error Json.Value :=
  decode Json.Value.ofBytes token verification decryption hint seconds draws

def decodeClaims (token : String) (verification decryption : KeySet) (hint : Suite) (seconds : Seconds)
    (draws : Draws) : Except Error ClaimMap :=
  decode ClaimMap.ofBytes token verification decryption hint seconds draws

def decodeStandard (token : String) (verification decryption : KeySet) (hint : Suite) (seconds : Seconds)
    (draws : Draws) : Except Error StandardClaims :=
  decode StandardClaims.ofBytes token verification decryption hint seconds draws

end WebToken.Token
