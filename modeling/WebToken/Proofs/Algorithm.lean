import WebToken.Suite

/-!
Registries: a name finds the algorithm that bears it, and no other one.
-/

namespace WebToken

theorem SignatureAlgorithm.ofName?_name (algorithm : SignatureAlgorithm) :
    SignatureAlgorithm.ofName? algorithm.name = some algorithm := by
  cases algorithm with
  | hmac hash => cases hash <;> rfl
  | pkcs1 hash => cases hash <;> rfl
  | pss hash => cases hash <;> rfl
  | ecdsa curve => cases curve <;> rfl
  | eddsa => rfl

theorem KeyAlgorithm.ofName?_name (algorithm : KeyAlgorithm) :
    KeyAlgorithm.ofName? algorithm.name = some algorithm := by
  cases algorithm with
  | ed25519 => rfl
  | rsaPkcs1 => rfl
  | rsaOaep hash => cases hash <;> rfl
  | aesWrap size => cases size <;> rfl
  | direct => rfl
  | agreement wrap =>
      cases wrap with
      | none => rfl
      | some size => cases size <;> rfl
  | gcmWrap size => cases size <;> rfl
  | password size => cases size <;> rfl

theorem ContentEncryption.ofName?_name (encryption : ContentEncryption) :
    ContentEncryption.ofName? encryption.name = some encryption := by
  cases encryption with
  | cbcHmac size => cases size <;> rfl
  | gcm size => cases size <;> rfl

theorem SignatureAlgorithm.ofName?_eq_some {name : String} {algorithm : SignatureAlgorithm} :
    SignatureAlgorithm.ofName? name = some algorithm ↔ algorithm.name = name := by
  constructor
  · intro found
    unfold ofName? at found
    have named := List.find?_some found
    exact beq_iff_eq.mp named
  · intro same
    subst same
    exact ofName?_name algorithm

theorem KeyAlgorithm.ofName?_eq_some {name : String} {algorithm : KeyAlgorithm} :
    KeyAlgorithm.ofName? name = some algorithm ↔ algorithm.name = name := by
  constructor
  · intro found
    unfold ofName? at found
    have named := List.find?_some found
    exact beq_iff_eq.mp named
  · intro same
    subst same
    exact ofName?_name algorithm

theorem SignatureAlgorithm.name_injective {one other : SignatureAlgorithm} (same : one.name = other.name) :
    one = other := by
  have found := ofName?_name one
  rw [same, ofName?_name other] at found
  exact (Option.some.inj found).symm

theorem KeyAlgorithm.name_injective {one other : KeyAlgorithm} (same : one.name = other.name) : one = other := by
  have found := ofName?_name one
  rw [same, ofName?_name other] at found
  exact (Option.some.inj found).symm

theorem ContentEncryption.name_injective {one other : ContentEncryption} (same : one.name = other.name) :
    one = other := by
  have found := ofName?_name one
  rw [same, ofName?_name other] at found
  exact (Option.some.inj found).symm

theorem SignatureAlgorithm.name_ne_empty (algorithm : SignatureAlgorithm) : algorithm.name ≠ "" := by
  intro empty
  have found := ofName?_eq_some.mpr empty
  contradiction

theorem KeyAlgorithm.name_ne_empty (algorithm : KeyAlgorithm) : algorithm.name ≠ "" := by
  intro empty
  have found := ofName?_eq_some.mpr empty
  contradiction

theorem ContentEncryption.name_ne_empty (encryption : ContentEncryption) : encryption.name ≠ "" := by
  intro empty
  have found := ofName?_name encryption
  rw [empty] at found
  contradiction

end WebToken
