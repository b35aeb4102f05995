import WebToken.Curve.Ecdsa
import WebToken.Draws
import WebToken.Key.Basic
import WebToken.Rsa.Signature

/-!
Signing and verifying bytes with a key. Every algorithm takes one kind of key material only, so a
public key never serves as a shared secret.
-/

namespace WebToken.Signature

open Sha2 (Kind)

/-- The secret of a keyed hash must be as long as its digest. -/
def checkSecret (hash : Kind) (secret : Bytes) : Except Error Unit :=
  if secret.length < hash.size then
    .error (.invalidKey (.shortSecret (SignatureAlgorithm.hmac hash).name hash.size secret.length))
  else .ok ()

def unusable (algorithm : SignatureAlgorithm) (material : Material) : Error :=
  .invalidKey (.wrongType material.keyType algorithm.name)

private def rsaSigned (result : Except Rsa.Failure Bytes) : Except Error Bytes :=
  result.mapError fun failure => .invalidKey (.rsaSigning failure)

def sign (algorithm : SignatureAlgorithm) (key : Key) (draws : Draws) (message : Bytes) :
    Except Error Bytes :=
  match algorithm, key.material with
  | .hmac hash, .symmetric secret => do
      checkSecret hash secret
      return hash.hmac secret message
  | .pkcs1 hash, .rsaPrivate key => rsaSigned (Rsa.Pkcs1.sign key hash message)
  | .pss hash, .rsaPrivate key =>
      rsaSigned (Rsa.Pss.sign key hash (draws.signatureSalt.take hash.size) message)
  | .ecdsa curve, .ecPrivate found secret =>
      if curve = found then
        require (.invalidKey .ecdsaSigning) (Ecdsa.sign? curve secret draws.nonce message)
      else .error (unusable algorithm key.material)
  | .eddsa, .edPrivate seed => .ok (Ed25519.sign seed message)
  | _, material => .error (unusable algorithm material)

/-- Checks a signature with key material. A private key checks it with its public half. -/
def check (algorithm : SignatureAlgorithm) (material : Material) (message signature : Bytes) :
    Except Error Bool :=
  match algorithm, material with
  | .hmac hash, .symmetric secret => do
      checkSecret hash secret
      return signature == hash.hmac secret message
  | .pkcs1 hash, .rsaPublic key => .ok (Rsa.Pkcs1.verify key hash message signature)
  | .pkcs1 hash, .rsaPrivate own => .ok (Rsa.Pkcs1.verify own.toPublic hash message signature)
  | .pss hash, .rsaPublic key => .ok (Rsa.Pss.verify key hash message signature)
  | .pss hash, .rsaPrivate own => .ok (Rsa.Pss.verify own.toPublic hash message signature)
  | .ecdsa curve, .ecPublic found point =>
      if curve = found then .ok (Ecdsa.verify curve point message signature)
      else .error (unusable algorithm material)
  | .ecdsa curve, .ecPrivate found secret =>
      if curve = found then .ok (Ecdsa.verify curve (found.publicPoint secret) message signature)
      else .error (unusable algorithm material)
  | .eddsa, .edPublic key => .ok (Ed25519.verify key message signature)
  | .eddsa, .edPrivate seed => .ok (Ed25519.verify (Ed25519.publicKey seed) message signature)
  | _, material => .error (unusable algorithm material)

def verify (algorithm : SignatureAlgorithm) (key : Key) (message signature : Bytes) :
    Except Error Unit := do
  if ← check algorithm key.material message signature then .ok ()
  else .error .invalidSignature

end WebToken.Signature
