import WebToken.Claims.Value
import WebToken.Json.Document

/-!
Claims without a schema: a JSON object.
-/

namespace WebToken

structure ClaimMap where
  members : Table Json.Value
  deriving Repr

namespace ClaimMap

def empty : ClaimMap := ⟨.empty⟩

def insert (claims : ClaimMap) (name : String) (value : Json.Value) : ClaimMap :=
  ⟨claims.members.insert name value⟩

def raw? (claims : ClaimMap) (name : String) : Option Json.Value := claims.members.find? name

def get (claims : ClaimMap) : ClaimView := fun name => (claims.raw? name).bind (Claim.ofValue? name)

def toValue (claims : ClaimMap) : Json.Value := .object claims.members.entries

def read (node : Json.Node) : Except Json.Fault ClaimMap := ClaimMap.mk <$> node.table

def ofBytes (bytes : Bytes) : Except Json.Fault ClaimMap := Json.read read bytes

end ClaimMap

end WebToken
