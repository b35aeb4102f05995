import WebToken.Jwe
import WebToken.Proofs.Key.Material
import WebToken.Proofs.Signature

/-!
The public side of a key. What verifies and encrypts with a key does so with its public half, so a private key
may stand in for its public half there, and a key that does not fit is refused alike.
-/

namespace WebToken

namespace KeyManagement

variable {algorithm : KeyAlgorithm} {encryption : ContentEncryption} {key : Key} {draws : Draws}

/-- A public half is of the same type as its key, and so are the refusals that tell the type. -/
theorem needs_toPublic (name what : String) (key : Key) :
    needs name what key.toPublic.material = needs name what key.material := by
  rw [Key.toPublic]
  cases key.material <;> rfl

theorem secretOfLength_toPublic (length : Nat) :
    secretOfLength key.toPublic algorithm length = secretOfLength key algorithm length := by
  unfold secretOfLength
  rw [Key.toPublic]
  cases key.material <;> rfl

theorem passwordOf_toPublic : passwordOf key.toPublic algorithm = passwordOf key algorithm := by
  unfold passwordOf
  rw [Key.toPublic]
  cases key.material <;> rfl

theorem deliverRsa_toPublic :
    deliverRsa algorithm encryption key.toPublic draws = deliverRsa algorithm encryption key draws := by
  unfold deliverRsa
  rw [Key.toPublic]
  cases key.material <;> rfl

/-- Each algorithm delivers to a key what it delivers to the public half. -/
theorem deliver_toPublic :
    deliver algorithm encryption key.toPublic draws = deliver algorithm encryption key draws := by
  cases algorithm with
  | ed25519 => rfl
  | direct => simp only [deliver, secretOfLength_toPublic]
  | aesWrap size => simp only [deliver, secretOfLength_toPublic]
  | rsaPkcs1 => exact deliverRsa_toPublic
  | rsaOaep hash => exact deliverRsa_toPublic
  | agreement wrapSize => simp only [deliver, Key.public?_toPublic, needs_toPublic]
  | gcmWrap size => simp only [deliver, secretOfLength_toPublic]
  | password size => simp only [deliver, passwordOf_toPublic]

end KeyManagement

namespace Key

/-- A key and its public half verify with the same result and encrypt to the same token from the same draws; where
one is refused the other is, for the same reason. -/
theorem toPublic_serves_alike (key : Key) :
    (∀ (algorithm : SignatureAlgorithm) (message signature : Bytes),
      Signature.verify algorithm key.toPublic message signature = Signature.verify algorithm key message signature) ∧
    ∀ (algorithm : KeyAlgorithm) (encryption : ContentEncryption) (draws : Draws) (plaintext : Bytes)
        (contentType : Option String),
      Jwe.encryptCompact algorithm encryption key.toPublic draws plaintext contentType =
        Jwe.encryptCompact algorithm encryption key draws plaintext contentType := by
  constructor
  · intro algorithm message signature
    exact Signature.verify_toPublic algorithm key message signature
  · intro algorithm encryption draws plaintext contentType
    -- The header names the identifier of the key, which the public half shares.
    rw [Jwe.encryptCompact, Jwe.encryptCompact, KeyManagement.deliver_toPublic]
    rfl

end Key

end WebToken
