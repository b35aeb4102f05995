import WebToken.Jwe
import WebToken.Proofs.Algorithm
import WebToken.Proofs.Key.Material

/-!
What a failed decryption discloses. Whatever depends on a secret fails in one way only, so every other
error is the same for all keys that an observer takes to be alike.
-/

namespace WebToken

/-- Key material of one kind. Of a shared secret the length is known as well. -/
inductive Material.Alike : Material → Material → Prop
  | symmetric {secret other : Bytes} (length : secret.length = other.length) :
      Alike (.symmetric secret) (.symmetric other)
  | rsaPrivate (key other : Rsa.PrivateKey) : Alike (.rsaPrivate key) (.rsaPrivate other)
  | rsaPublic (key other : Rsa.PublicKey) : Alike (.rsaPublic key) (.rsaPublic other)
  | ecPrivate (curve : Curve) (secret other : Nat) : Alike (.ecPrivate curve secret) (.ecPrivate curve other)
  | ecPublic (curve : Curve) (point other : Curve.Point) : Alike (.ecPublic curve point) (.ecPublic curve other)
  | edPrivate (seed other : Bytes) : Alike (.edPrivate seed) (.edPrivate other)
  | edPublic (key other : Bytes) : Alike (.edPublic key) (.edPublic other)

namespace Disclosure

variable {α β : Type}

/-- The cause that a result tells. A failed decryption tells none, like a result that is there. -/
def told? : Except Error α → Option Error
  | .ok _ => none
  | .error .decryptionFailed => none
  | .error cause => some cause

@[simp] theorem told?_ok (value : α) : told? (.ok value) = none := rfl

theorem told?_eq_some {result : Except Error α} {cause : Error} :
    told? result = some cause ↔ result = .error cause ∧ cause ≠ .decryptionFailed := by
  unfold told?
  split
  case h_1 => simp
  case h_2 =>
      constructor
      · exact nofun
      · intro given
        obtain ⟨failed, other⟩ := given
        exact absurd (Except.error.inj failed).symm other
  case h_3 found other =>
      rw [Option.some.injEq, Except.error.injEq]
      constructor
      · rintro rfl
        exact ⟨rfl, other⟩
      · exact And.left

theorem told?_eq_none {result : Except Error α} :
    told? result = none ↔ (∃ value, result = .ok value) ∨ result = .error .decryptionFailed := by
  cases result with
  | ok value => simp [told?]
  | error cause => cases cause <;> simp [told?]

theorem told?_require (found : Option α) : told? (require .decryptionFailed found) = none := by
  cases found <;> rfl

theorem told?_bind_of_silent {first : Except Error α} {next : α → Except Error β}
    (silent : ∀ value, told? (next value) = none) : told? (first >>= next) = told? first := by
  cases first with
  | ok value => exact silent value
  | error cause => cases cause <;> rfl

/-- Steps that tell the same may give different values to what comes after, if that tells nothing. -/
theorem told?_bind_silent {first second : Except Error α} {next after : α → Except Error β}
    (same : told? first = told? second) (silent : ∀ value, told? (next value) = none)
    (alsoSilent : ∀ value, told? (after value) = none) : told? (first >>= next) = told? (second >>= after) := by
  rw [told?_bind_of_silent silent, told?_bind_of_silent alsoSilent, same]

theorem told?_bind_congr {first : Except Error α} {next after : α → Except Error β}
    (same : ∀ value, told? (next value) = told? (after value)) :
    told? (first >>= next) = told? (first >>= after) := by
  cases first with
  | ok value => exact same value
  | error cause => rfl

theorem told?_openContent (encryption : ContentEncryption) (contentKey associated : Bytes) (content : Sealed) :
    told? (encryption.openContent contentKey associated content) = none := by
  unfold ContentEncryption.openContent
  split
  · rfl
  · exact told?_require _

open KeyManagement

theorem told?_unwrap (size : Aes.KeySize) (key wrapped : Bytes) : told? (unwrap size key wrapped) = none :=
  told?_require _

theorem told?_rsaDecrypt (algorithm : KeyAlgorithm) (draws : Draws) (key : Rsa.PrivateKey) (encryptedKey : Bytes)
    (length : Nat) : told? (rsaDecrypt algorithm draws key encryptedKey length) = none := by
  unfold rsaDecrypt
  split
  · rename_i hash
    cases Rsa.Oaep.decrypt key hash encryptedKey <;> rfl
  · dsimp only
    split <;> rfl

variable {key other : Key} {draws later : Draws} {algorithm : KeyAlgorithm} {encryption : ContentEncryption}
  {encryptedKey : Bytes} {parameters : KeyParameters}

theorem told?_secretOfLength (length : Nat) (alike : key.material.Alike other.material) :
    told? (secretOfLength key algorithm length) = told? (secretOfLength other algorithm length) := by
  unfold secretOfLength
  generalize key.material = one at alike ⊢
  generalize other.material = two at alike ⊢
  cases alike with
  | symmetric sized =>
      dsimp only
      rw [sized]
      split <;> rfl
  | _ => rfl

theorem told?_passwordOf (alike : key.material.Alike other.material) :
    told? (passwordOf key algorithm) = told? (passwordOf other algorithm) := by
  unfold passwordOf
  generalize key.material = one at alike ⊢
  generalize other.material = two at alike ⊢
  cases alike with
  | @symmetric secret another sized =>
      have empty : secret.isEmpty = another.isEmpty := by
        rw [Bool.eq_iff_iff, List.isEmpty_iff_length_eq_zero, List.isEmpty_iff_length_eq_zero, sized]
      dsimp only
      rw [empty]
      split <;> rfl
  | _ => rfl

theorem told?_recoverRsa (alike : key.material.Alike other.material) :
    told? (recoverRsa algorithm encryption key draws encryptedKey) =
      told? (recoverRsa algorithm encryption other later encryptedKey) := by
  unfold recoverRsa
  generalize key.material = one at alike ⊢
  generalize other.material = two at alike ⊢
  cases alike with
  | rsaPrivate own another => exact (told?_rsaDecrypt _ _ own _ _).trans (told?_rsaDecrypt _ _ another _ _).symm
  | _ => rfl

/-- Alike keys both agree with an ephemeral key, or are refused for one reason. -/
theorem agreeStatic_alike {one two : Material} (alike : one.Alike two) (ephemeral : Material) :
    (∃ secret another, agreeStatic one ephemeral = .ok secret ∧ agreeStatic two ephemeral = .ok another) ∨
      ∃ cause, agreeStatic one ephemeral = .error cause ∧ agreeStatic two ephemeral = .error cause := by
  cases alike with
  | ecPrivate curve secret another =>
      cases ephemeral with
      | ecPublic found point =>
          by_cases same : curve = found
          · exact .inl ⟨_, _, if_pos same, if_pos same⟩
          · exact .inr ⟨_, if_neg same, if_neg same⟩
      | _ => exact .inr ⟨_, rfl, rfl⟩
  | _ => exact .inr ⟨_, rfl, rfl⟩

/-- What recovering a content key tells of the recipient's key is its kind and the length of a shared
secret, whatever is drawn. -/
theorem told?_recover (alike : key.material.Alike other.material) :
    told? (recover algorithm encryption key draws encryptedKey parameters) =
      told? (recover algorithm encryption other later encryptedKey parameters) := by
  cases algorithm with
  | ed25519 => rfl
  | direct =>
      simp only [recover]
      split
      · exact told?_secretOfLength _ alike
      · rfl
  | aesWrap size =>
      exact told?_bind_silent (told?_secretOfLength _ alike) (fun _ => told?_unwrap _ _ _)
        fun _ => told?_unwrap _ _ _
  | rsaPkcs1 => exact told?_recoverRsa alike
  | rsaOaep hash => exact told?_recoverRsa alike
  | agreement wrapSize =>
      simp only [recover]
      refine told?_bind_congr fun jwk => told?_bind_congr fun ephemeral => ?_
      rcases agreeStatic_alike alike ephemeral with ⟨secret, another, agreed, also⟩ | ⟨cause, refused, also⟩
      · -- Two secrets were agreed on; what follows looks at neither before the unwrapping.
        rw [agreed, also, ok_bind, ok_bind]
        cases wrapSize with
        | none =>
            cases encryptedKey with
            | nil => simp only [List.isEmpty_nil, if_true, told?_ok]
            | cons byte rest => simp only [List.isEmpty_cons, Bool.false_eq_true, if_false]
        | some size => exact (told?_unwrap _ _ _).trans (told?_unwrap _ _ _).symm
      · rw [refused, also]
  | gcmWrap size =>
      simp only [recover]
      split
      · exact told?_bind_silent (told?_secretOfLength _ alike) (fun _ => told?_require _)
          fun _ => told?_require _
      · rfl
  | password size =>
      simp only [recover]
      split
      · rename_i salt iterations _ _
        by_cases short : salt.length < minSaltLength
        · simp only [if_pos short]
          rfl
        · cases accepted : acceptsIterations iterations with
          | false =>
              simp only [if_neg short, Bool.not_false, if_true]
              rfl
          | true =>
              simp only [if_neg short, Bool.not_true, Bool.false_eq_true, if_false]
              exact told?_bind_silent (told?_passwordOf alike) (fun _ => told?_unwrap _ _ _)
                fun _ => told?_unwrap _ _ _
      · rfl

theorem told?_decrypt (jwe : Jwe) (alike : key.material.Alike other.material) :
    told? (jwe.decrypt key draws) = told? (jwe.decrypt other later) := by
  simp only [Jwe.decrypt]
  refine told?_bind_congr fun algorithm => told?_bind_congr fun encryption => told?_bind_congr fun parameters => ?_
  exact told?_bind_silent (told?_recover alike) (fun _ => told?_openContent _ _ _ _)
    fun _ => told?_openContent _ _ _ _

end Disclosure

namespace Jwe

open Disclosure

/-- A token that is refused with one key for any other reason than a failed decryption is refused for the
same reason with every key of its kind, whatever is drawn. Opening content and unwrapping a content key
fail in that one way only. -/
theorem decrypt_discloses_kind :
    (∀ (jwe : Jwe) (key other : Key) (draws later : Draws) (cause : Error),
      key.material.Alike other.material → jwe.decrypt key draws = .error cause → cause ≠ .decryptionFailed →
        jwe.decrypt other later = .error cause) ∧
    (∀ (encryption : ContentEncryption) (contentKey associated : Bytes) (content : Sealed),
      (∃ plaintext, encryption.openContent contentKey associated content = .ok plaintext) ∨
        encryption.openContent contentKey associated content = .error .decryptionFailed) ∧
    ∀ (size : Aes.KeySize) (key wrapped : Bytes),
      (∃ contentKey, KeyManagement.unwrap size key wrapped = .ok contentKey) ∨
        KeyManagement.unwrap size key wrapped = .error .decryptionFailed := by
  refine ⟨?_, ?_, ?_⟩
  · intro jwe key other draws later cause alike failed visible
    have told : told? (jwe.decrypt key draws) = some cause := told?_eq_some.mpr ⟨failed, visible⟩
    rw [told?_decrypt jwe alike] at told
    exact (told?_eq_some.mp told).1
  · intro encryption contentKey associated content
    exact told?_eq_none.mp (told?_openContent encryption contentKey associated content)
  · intro size key wrapped
    exact told?_eq_none.mp (told?_unwrap size key wrapped)

/-- Both scalars agree with the ephemeral key before the encrypted key that must not be there is seen. -/
theorem decrypt_discloses_kind_agreement :
    let epk := Jwk.ofMaterial (.ecPublic .p256 Curve.p256.generator)
    let jwe : Jwe := ⟨{ alg := "ECDH-ES", enc := some "A128GCM", epk := some epk }, "", [0], ⟨[], [], []⟩⟩
    let key (secret : Nat) : Key := ⟨"a", none, none, .ecPrivate .p256 secret⟩
    jwe.decrypt (key 1) (.constant 0 0) = .error (.invalidToken .agreementCarriesKey) ∧
      jwe.decrypt (key 2) (.constant 1 1) = .error (.invalidToken .agreementCarriesKey) := by
  intro epk jwe key
  have read (change : KeyFlaw → Error) : epk.material.mapError change = .ok (.ecPublic .p256 Curve.p256.generator) :=
    mapError_eq_ok.mpr (Jwk.material_ofMaterial_ecPublic (by decide +kernel))
  have recovered : KeyManagement.recover (.agreement none) (.gcm .bits128) (key 1) (.constant 0 0) [0]
      ⟨some epk, [], [], none, none, none, none⟩ = .error (.invalidToken .agreementCarriesKey) := by
    rw [KeyManagement.recover, require, ok_bind, read, ok_bind]
    rfl
  have failed : jwe.decrypt (key 1) (.constant 0 0) = .error (.invalidToken .agreementCarriesKey) := by
    have algorithm : KeyAlgorithm.ofName? jwe.header.alg = some (.agreement none) :=
      KeyAlgorithm.ofName?_name (.agreement none)
    have encryption : ContentEncryption.ofName? (jwe.header.enc.getD "") = some (.gcm .bits128) :=
      ContentEncryption.ofName?_name (.gcm .bits128)
    have parameters : (keyParameters jwe.header).mapError Error.invalidToken =
        .ok ⟨some epk, [], [], none, none, none, none⟩ := rfl
    rw [decrypt, algorithm, require, ok_bind]
    dsimp only
    rw [encryption, require, ok_bind, parameters, ok_bind, recovered]
    rfl
  exact ⟨failed, decrypt_discloses_kind.1 jwe (key 1) (key 2) _ _ _ (.ecPrivate _ _ _) failed (by decide)⟩

end Jwe

end WebToken
