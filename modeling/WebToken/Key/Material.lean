import WebToken.Curve.Ed25519
import WebToken.Error

/-!
Key material: a shared secret, or the private or public half of an asymmetric key.
-/

namespace WebToken

inductive Material
  | symmetric (secret : Bytes)
  | rsaPrivate (key : Rsa.PrivateKey)
  | rsaPublic (key : Rsa.PublicKey)
  | ecPrivate (curve : Curve) (secret : Nat)
  | ecPublic (curve : Curve) (point : Curve.Point)
  | edPrivate (seed : Bytes)
  | edPublic (key : Bytes)
  deriving DecidableEq, Repr

namespace Material

def keyType : Material → String
  | symmetric _ => "oct"
  | rsaPrivate _ | rsaPublic _ => "RSA"
  | ecPrivate _ _ | ecPublic _ _ => "EC"
  | edPrivate _ | edPublic _ => "OKP"

def public? : Material → Option Material
  | symmetric _ => none
  | rsaPrivate key => some (rsaPublic key.toPublic)
  | ecPrivate curve secret => some (ecPublic curve (curve.publicPoint secret))
  | edPrivate seed => some (edPublic (Ed25519.publicKey seed))
  | rsaPublic key => some (rsaPublic key)
  | ecPublic curve point => some (ecPublic curve point)
  | edPublic key => some (edPublic key)

def isSymmetric : Material → Bool
  | symmetric _ => true
  | _ => false

def isPublic : Material → Bool
  | rsaPublic _ | ecPublic _ _ | edPublic _ => true
  | _ => false

end Material

end WebToken
