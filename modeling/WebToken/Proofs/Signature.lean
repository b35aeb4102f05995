import WebToken.Signature

/-!
Signing and verifying: whatever a key signs, the key and its public half accept. Each signature
scheme is trusted with that for its own key pairs; the choice of the scheme, of the key material and
of the public half is not.
-/

namespace WebToken.Signature

/-- The verifier of a scheme accepts what the signer made with the other half of the key. Nothing is
asked of a keyed hash, which is made a second time. -/
def Trusted : SignatureAlgorithm → Material → Prop
  | .pkcs1 hash, .rsaPrivate key => ∀ message signature,
      Rsa.Pkcs1.sign key hash message = .ok signature →
        Rsa.Pkcs1.verify key.toPublic hash message signature = true
  | .pss hash, .rsaPrivate key => ∀ salt message signature, salt.length = hash.size →
      Rsa.Pss.sign key hash salt message = .ok signature →
        Rsa.Pss.verify key.toPublic hash message signature = true
  | .ecdsa curve, .ecPrivate _ secret => ∀ drawn message signature,
      Ecdsa.sign? curve secret drawn message = some signature →
        Ecdsa.verify curve (curve.publicPoint secret) message signature = true
  | .eddsa, .edPrivate seed => ∀ message,
      Ed25519.verify (Ed25519.publicKey seed) message (Ed25519.sign seed message) = true
  | _, _ => True

theorem trusted_symmetric (algorithm : SignatureAlgorithm) (secret : Bytes) :
    Trusted algorithm (.symmetric secret) := by
  cases algorithm <;> trivial

variable {algorithm : SignatureAlgorithm} {key : Key} {draws : Draws} {message signature : Bytes}

theorem verify_of_check (accepted : check algorithm key.material message signature = .ok true) :
    verify algorithm key message signature = .ok () := by
  rw [verify, accepted]
  rfl

theorem verify_of_sign (trusted : Trusted algorithm key.material)
    (signed : sign algorithm key draws message = .ok signature) :
    verify algorithm key message signature = .ok () := by
  apply verify_of_check
  fun_cases sign algorithm key draws message with
  | case1 hash secret same =>
      simp only [sign, same] at signed
      obtain ⟨_, sized, signed⟩ := bind_eq_ok.mp signed
      cases signed
      rw [same, check, sized, ok_bind, beq_self_eq_true]
      rfl
  | case2 hash own same =>
      rw [same] at trusted
      simp only [sign, same] at signed
      have accepted := trusted message signature (mapError_eq_ok.mp signed)
      rw [same, check, accepted]
  | case3 hash own same =>
      rw [same] at trusted
      simp only [sign, same] at signed
      have accepted := trusted _ message signature (ByteSource.length_take _ _) (mapError_eq_ok.mp signed)
      rw [same, check, accepted]
  | case4 curve secret same =>
      rw [same] at trusted
      simp only [sign, same, if_true] at signed
      have accepted := trusted draws.nonce message signature (require_eq_ok.mp signed)
      rw [same, check, if_pos rfl, accepted]
  | case5 curve found secret same differs =>
      simp only [sign, same, differs, if_false] at signed
      cases signed
  | case6 seed same =>
      rw [same] at trusted
      simp only [sign, same] at signed
      rw [← Except.ok.inj signed, same, check, trusted message]
  | case7 _ hmac pkcs1 pss ecdsa eddsa =>
      rw [sign.eq_6 key draws message algorithm hmac pkcs1 pss ecdsa eddsa] at signed
      cases signed

/-- Each algorithm checks with private material as it does with the public half, and refuses both for one
reason. -/
theorem check_public? (algorithm : SignatureAlgorithm) (material : Material) (message signature : Bytes) :
    check algorithm (material.public?.getD material) message signature =
      check algorithm material message signature := by
  cases material with
  | symmetric secret => rfl
  | rsaPublic key => rfl
  | ecPublic curve point => rfl
  | edPublic key => rfl
  | rsaPrivate own => cases algorithm <;> rfl
  | ecPrivate curve secret =>
      cases algorithm with
      | ecdsa named =>
          by_cases same : named = curve
          · simp only [Material.public?, Option.getD_some, check, if_pos same]
          · simp only [Material.public?, Option.getD_some, check, if_neg same]
            rfl
      | _ => rfl
  | edPrivate seed => cases algorithm <;> rfl

/-- A key and its public half accept the same signatures, and refuse all others for the same reasons. -/
theorem verify_toPublic (algorithm : SignatureAlgorithm) (key : Key) (message signature : Bytes) :
    verify algorithm key.toPublic message signature = verify algorithm key message signature := by
  rw [verify, verify, Key.toPublic, check_public?]

end WebToken.Signature
