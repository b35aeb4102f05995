import WebToken.Json.Record
import WebToken.Key.Material
import WebToken.Text.Base64Url

/-!
Keys as JSON documents. Members that hold numbers or bytes are base64url texts; `Jwk.material` turns
them into key material and `Jwk.ofMaterial` writes material down again.
-/

namespace WebToken

inductive KeyUse
  | signature
  | encryption
  deriving DecidableEq, Repr

namespace KeyUse

def name : KeyUse → String
  | signature => "sig"
  | encryption => "enc"

def ofName? (text : String) : Option KeyUse := [signature, encryption].find? (·.name == text)

def ofNode (body : Json.Body) : Except Json.Fault KeyUse := do
  match ofName? (← body.read) with
  | some use => .ok use
  | none => .error .mismatched

/-- Reads a use: a string, or an object with the name as its only member and null as the value. -/
def read : Json.Node → Except Json.Fault KeyUse
  | .missing fault => .error fault
  | .string body => ofNode body
  | .object ((key, item) :: rest) ending => do
      let use ← ofNode key
      item.null
      match rest, ending with
      | [], .closed => .ok use
      | [], .cut fault => .error fault
      | _, _ => .error .malformed
  | .object [] (.dangling _ asString) => .error asString
  | _ => .error .malformed

def ofText (text : String) : Except Json.Fault KeyUse := Json.read read (Bytes.ofText text)

/-- Reads a use from a value whose text is known to be sound, where an empty object may stand in for
null. -/
def readSound (node : Json.Node) : Except Json.Fault KeyUse :=
  match node with
  | .object [(key, .object [] .closed)] .closed => ofNode key
  | node => read node

end KeyUse

structure Jwk where
  kty : String
  use : Option KeyUse := none
  kid : Option String := none
  alg : Option String := none
  k : Option String := none
  crv : Option String := none
  x : Option String := none
  y : Option String := none
  d : Option String := none
  n : Option String := none
  e : Option String := none
  p : Option String := none
  q : Option String := none
  dp : Option String := none
  dq : Option String := none
  qi : Option String := none
  deriving DecidableEq, Repr

namespace Jwk

open Json (Member Node)

private def textField (name : String) (put : Option String → Jwk → Jwk) : Member Jwk :=
  .of name .optional (Node.optional Node.text) put

def fields (readUse : Node → Except Json.Fault KeyUse) : List (Member Jwk) :=
  [.of "kty" .required Node.text fun value jwk => { jwk with kty := value },
    .of "use" .optional (Node.optional readUse) fun value jwk => { jwk with use := value },
    textField "kid" fun value jwk => { jwk with kid := value },
    textField "alg" fun value jwk => { jwk with alg := value },
    textField "k" fun value jwk => { jwk with k := value },
    textField "crv" fun value jwk => { jwk with crv := value },
    textField "x" fun value jwk => { jwk with x := value },
    textField "y" fun value jwk => { jwk with y := value },
    textField "d" fun value jwk => { jwk with d := value },
    textField "n" fun value jwk => { jwk with n := value },
    textField "e" fun value jwk => { jwk with e := value },
    textField "p" fun value jwk => { jwk with p := value },
    textField "q" fun value jwk => { jwk with q := value },
    textField "dp" fun value jwk => { jwk with dp := value },
    textField "dq" fun value jwk => { jwk with dq := value },
    textField "qi" fun value jwk => { jwk with qi := value }]

def readWith (readUse : Node → Except Json.Fault KeyUse) (node : Node) : Except Json.Fault Jwk :=
  Json.Record.read (fields readUse) Json.Record.skipOther { kty := "" } node

def read (node : Node) : Except Json.Fault Jwk := readWith KeyUse.read node

def ofText (text : String) : Except Json.Fault Jwk := Json.read read (Bytes.ofText text)

def entries (jwk : Jwk) : List (String × String) :=
  [("kty", some jwk.kty), ("use", jwk.use.map KeyUse.name), ("kid", jwk.kid), ("alg", jwk.alg),
    ("k", jwk.k), ("crv", jwk.crv), ("x", jwk.x), ("y", jwk.y), ("d", jwk.d), ("n", jwk.n),
    ("e", jwk.e), ("p", jwk.p), ("q", jwk.q), ("dp", jwk.dp), ("dq", jwk.dq),
    ("qi", jwk.qi)].filterMap fun member => member.2.map fun value => (member.1, value)

def write (jwk : Jwk) : List Char :=
  Json.Text.members (jwk.entries.map fun entry => (entry.1, Json.Text.quote entry.2))

def toText (jwk : Jwk) : String := String.ofList jwk.write

def member (type name : String) (value : Option String) : Except KeyFlaw Bytes :=
  match value with
  | none => .error (.missingMember type name)
  | some text =>
      match Base64Url.decode? text with
      | some bytes => .ok bytes
      | none => .error (.notBase64 type name)

def number (name : String) (value : Option String) : Except KeyFlaw Nat :=
  Bytes.toNat <$> member "RSA" name value

def rsaMaterial (jwk : Jwk) : Except KeyFlaw Material := do
  let n ← number "n" jwk.n
  let e ← number "e" jwk.e
  if jwk.d.isNone then
    (Rsa.PublicKey.ofNumbers n e).mapError .rsaPublic |>.map .rsaPublic
  else
    let d ← number "d" jwk.d
    let p ← number "p" jwk.p
    let q ← number "q" jwk.q
    (Rsa.PrivateKey.ofNumbers n e d p q).mapError .rsaPrivate |>.map .rsaPrivate

def minScalarLength : Nat := 24

/-- The material of an elliptic curve key. The point stands aside where there is a secret scalar. -/
def ecMaterial (jwk : Jwk) : Except KeyFlaw Material := do
  let name ← match jwk.crv with
    | some name => .ok name
    | none => .error (.missingMember "EC" "crv")
  match Curve.ofName? name with
  | none => .error (.unsupportedCurve name)
  | some curve =>
      if jwk.d.isSome then
        let bytes ← member "EC" "d" jwk.d
        let secret := Bytes.toNat bytes
        if minScalarLength ≤ bytes.length ∧ bytes.length ≤ curve.size ∧ 0 < secret ∧
            secret < curve.order then
          .ok (.ecPrivate curve secret)
        else .error (.scalar curve)
      else
        let x ← member "EC" "x" jwk.x
        let y ← member "EC" "y" jwk.y
        if x.length ≠ curve.size ∨ y.length ≠ curve.size then .error (.coordinateLength curve.size)
        else
          let point : Curve.Point := ⟨Bytes.toNat x, Bytes.toNat y⟩
          if curve.contains point then .ok (.ecPublic curve point) else .error (.offCurve curve)

/-- The material of an Ed25519 key. A seed must go with the public key beside it. -/
def edMaterial (jwk : Jwk) : Except KeyFlaw Material := do
  match jwk.crv with
  | none => throw (.missingMember "OKP" "crv")
  | some name => if name ≠ "Ed25519" then throw (.unsupportedCurve name)
  let x ← member "OKP" "x" jwk.x
  if x.length ≠ 32 then throw .edPublicLength
  if (Ed25519.decompress? x).isNone then throw .edPublic
  if jwk.d.isNone then return .edPublic x
  let seed ← member "OKP" "d" jwk.d
  if seed.length ≠ 32 then throw .edSeedLength
  if Ed25519.publicKey seed ≠ x then throw .edMismatch
  return .edPrivate seed

def material (jwk : Jwk) : Except KeyFlaw Material :=
  if jwk.kty = "oct" then .symmetric <$> member "oct" "k" jwk.k
  else if jwk.kty = "RSA" then jwk.rsaMaterial
  else if jwk.kty = "EC" then jwk.ecMaterial
  else if jwk.kty = "OKP" then jwk.edMaterial
  else .error (.unsupportedType jwk.kty)

def shortest (number : Nat) : Option String := some (Base64Url.encode (Bytes.minimal number))

def sized (curve : Curve) (number : Nat) : Option String :=
  some (Base64Url.encode (Bytes.ofNat curve.size number))

/-- The document of key material, without the members that do not belong to the material. -/
def ofMaterial (material : Material) : Jwk :=
  match material with
  | .symmetric secret => { kty := "oct", k := some (Base64Url.encode secret) }
  | .rsaPublic key => { kty := "RSA", n := shortest key.n, e := shortest key.e }
  | .rsaPrivate key =>
      let residues := key.residues?
      { kty := "RSA", n := shortest key.n, e := shortest key.e, d := shortest key.d
        p := shortest key.p, q := shortest key.q
        dp := residues.bind fun r => shortest r.dp
        dq := residues.bind fun r => shortest r.dq
        qi := residues.bind fun r => shortest r.inverse }
  | .ecPublic curve point =>
      { kty := "EC", crv := some curve.name, x := sized curve point.x, y := sized curve point.y }
  | .ecPrivate curve secret =>
      let point := curve.publicPoint secret
      { kty := "EC", crv := some curve.name, x := sized curve point.x, y := sized curve point.y
        d := sized curve secret }
  | .edPublic key => { kty := "OKP", crv := some "Ed25519", x := some (Base64Url.encode key) }
  | .edPrivate seed =>
      { kty := "OKP", crv := some "Ed25519", x := some (Base64Url.encode (Ed25519.publicKey seed))
        d := some (Base64Url.encode seed) }

/-- The document of several keys: an object with the member `keys`. -/
def setFields : List (Member (List Jwk)) :=
  [.of "keys" .defaulted (Node.list read) fun value _ => value]

def readSet (node : Node) : Except Json.Fault (List Jwk) :=
  Json.Record.read setFields Json.Record.skipOther [] node

def setOfText (text : String) : Except Json.Fault (List Jwk) := Json.read readSet (Bytes.ofText text)

def writeSet (jwks : List Jwk) : List Char :=
  Json.Text.members [("keys", Json.Text.list (jwks.map write))]

end Jwk

end WebToken
