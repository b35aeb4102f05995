import WebToken.Key.Jwk

/-!
Keys: material with an identifier, a use and an algorithm that the key declares for itself.
-/

namespace WebToken

/-- A key. The identifier is empty where there is none. -/
structure Key where
  id : String
  use : Option KeyUse
  declared : Option String
  material : Material
  deriving DecidableEq, Repr

namespace Key

def symmetric (id : String) (secret : Bytes) : Key := ⟨id, none, none, .symmetric secret⟩

def withId (key : Key) (id : String) : Key := { key with id }

def withUse (key : Key) (use : KeyUse) : Key := { key with use := some use }

def withAlgorithm (key : Key) (algorithm : String) : Key := { key with declared := some algorithm }

def algorithm (key : Key) : String := key.declared.getD ""

def isSymmetric (key : Key) : Bool := key.material.isSymmetric

def isPublic (key : Key) : Bool := key.material.isPublic

/-- The key with the public half of its material. A shared secret stays as it is. -/
def toPublic (key : Key) : Key := { key with material := key.material.public?.getD key.material }

def ofJwk (jwk : Jwk) : Except KeyFlaw Key := do
  let material ← jwk.material
  return ⟨jwk.kid.getD "", jwk.use, jwk.alg, material⟩

def toJwk (key : Key) : Jwk :=
  { Jwk.ofMaterial key.material with
    kid := if key.id.isEmpty then none else some key.id
    use := key.use
    alg := key.declared }

def read (node : Json.Node) : Except (Json.Refusal KeyFlaw) Key := do
  let jwk ← (Jwk.read node).mapError .text
  (ofJwk jwk).mapError .content

def ofText (text : String) : Except (Json.Refusal KeyFlaw) Key :=
  Json.readFrom .ended read (Bytes.ofText text)

def toText (key : Key) : String := key.toJwk.toText

end Key

end WebToken
