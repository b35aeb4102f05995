import WebToken.Proofs.Hash.Sha2
import WebToken.Proofs.Rsa.Key
import WebToken.Proofs.Signature

/-!
An RSA signature verifies with the public half of the key that made it. No factor has to be prime
for it: the private operation of a signature is checked by undoing it, which is what a verifier does.
-/

namespace WebToken

namespace Rsa

open Sha2 (Kind)

variable {key : PrivateKey} {hash : Kind} {bits number result : Nat} {salt message encoded signature : Bytes}

theorem PrivateKey.applyChecked_eq_ok :
    key.applyChecked number = .ok result ↔
      number < key.n ∧ key.apply number = result ∧ key.toPublic.apply result = number := by
  unfold applyChecked
  split
  case isTrue large => exact ⟨nofun, fun given => absurd given.1 (Nat.not_lt.mpr large)⟩
  case isFalse small =>
      dsimp only
      split
      case isTrue undone =>
          constructor
          · intro found
            obtain rfl := Except.ok.inj found
            exact ⟨Nat.not_le.mp small, rfl, undone⟩
          · intro ⟨_, rfl, _⟩
            rfl
      case isFalse kept =>
          constructor
          · exact nofun
          · intro given
            obtain ⟨_, rfl, undone⟩ := given
            exact absurd undone kept

/-- What a verifier sees of a signature: its number is below the modulus and opens to what was signed. -/
theorem opens_of_applyChecked (consistent : key.Consistent) (applied : key.applyChecked number = .ok result) :
    Bytes.toNat (Bytes.ofNat key.toPublic.size result) < key.n ∧
      key.toPublic.apply (Bytes.toNat (Bytes.ofNat key.toPublic.size result)) = number := by
  obtain ⟨small, rfl, undone⟩ := PrivateKey.applyChecked_eq_ok.mp applied
  have below : key.apply number < key.n := PrivateKey.apply_lt consistent (Nat.zero_lt_of_lt small) number
  have fits : key.apply number < Nat.pow 256 key.toPublic.size := Nat.lt_trans below (modulus_lt key.toPublic)
  rw [Bytes.toNat_ofNat, Nat.mod_eq_of_lt fits]
  exact ⟨below, undone⟩

namespace Pkcs1

theorem length_encode {size : Nat} (padded : encode? hash size message = some encoded) :
    encoded.length = size := by
  unfold encode? at padded
  dsimp only at padded
  split at padded
  · cases padded
  · obtain rfl := Option.some.inj padded
    simp only [List.length_cons, List.length_append, List.length_replicate] at *
    omega

theorem verify_sign (consistent : key.Consistent) (signed : sign key hash message = .ok signature) :
    verify key.toPublic hash message signature = true := by
  unfold sign at signed
  dsimp only at signed
  split at signed
  · cases signed
  · rename_i encoded padded
    obtain ⟨result, applied, rfl⟩ := map_eq_ok.mp signed
    obtain ⟨below, opened⟩ := opens_of_applyChecked consistent applied
    have spelled := Bytes.ofNat_toNat encoded
    rw [length_encode padded] at spelled
    rw [verify, opened, spelled, padded, Bytes.length_ofNat]
    simp only [beq_self_eq_true, Bool.and_true, Bool.true_and, decide_eq_true_eq]
    exact below

/-- A message is signed where its digest fits below the modulus with its padding. -/
theorem exists_sign (inverts : key.Inverts) (room : hash.size + 30 ≤ key.toPublic.size) :
    ∃ signature, sign key hash message = .ok signature := by
  have infoLength : (digestInfo hash).length = 19 := by cases hash <;> rfl
  have fits : ¬key.toPublic.size < (digestInfo hash ++ hash.digest message).length + 11 := by
    rw [List.length_append, infoLength, hash.length_digest]
    omega
  obtain ⟨text, padded⟩ : ∃ text, encode? hash key.toPublic.size message = some (0x00 :: text) := ⟨_, if_neg fits⟩
  have below : Bytes.toNat (0x00 :: text) < key.n := toNat_lt_modulus (length_encode padded)
  obtain ⟨result, applied⟩ := PrivateKey.exists_applyChecked inverts below
  refine ⟨Bytes.ofNat key.toPublic.size result, ?_⟩
  rw [sign]
  simp only [padded, applied]
  rfl

end Pkcs1

namespace Pss

theorem toNat_ofNat_mod (byte : UInt8) (bits : Nat) :
    (UInt8.ofNat (byte.toNat % Nat.pow 2 bits)).toNat = byte.toNat % Nat.pow 2 bits := by
  apply UInt8.toNat_ofNat_of_lt'
  exact Nat.lt_of_le_of_lt (Nat.mod_le _ _) byte.toNat_lt

theorem length_trimTop (bits : Nat) (text : Bytes) : (trimTop bits text).length = text.length := by
  cases text <;> rfl

theorem trimTop_trimTop (bits : Nat) (text : Bytes) : trimTop bits (trimTop bits text) = trimTop bits text := by
  cases text with
  | nil => rfl
  | cons first rest => rw [trimTop, trimTop, toNat_ofNat_mod, Nat.mod_mod]

theorem trimTop_of_lt {first : UInt8} {rest : Bytes} (low : first.toNat < Nat.pow 2 (bits - 8 * rest.length)) :
    trimTop bits (first :: rest) = first :: rest := by
  rw [trimTop, Nat.mod_eq_of_lt low, UInt8.ofNat_toNat]

/-- Clearing bits before a sum does not change what is left of it after clearing them again. -/
theorem trimTop_xor {text stream : Bytes} (enough : text.length ≤ stream.length) :
    trimTop bits (Bytes.xor (trimTop bits text) stream) = trimTop bits (Bytes.xor text stream) := by
  cases text with
  | nil => rfl
  | cons first rest =>
      cases stream with
      | nil => exact absurd enough (by simp)
      | cons other stream =>
          have length : (List.zipWith (· ^^^ ·) rest stream).length = rest.length := by
            rw [List.length_zipWith]
            exact Nat.min_eq_left (Nat.le_of_succ_le_succ enough)
          simp only [trimTop, Bytes.xor, List.zipWith_cons_cons, length, UInt8.toNat_xor, toNat_ofNat_mod]
          congr 2
          simp only [Nat.pow_eq, Nat.xor_mod_two_pow, Nat.mod_mod]

/-- A stream is taken off by adding it again, if the bits that were cleared meanwhile were clear at first. -/
theorem trimTop_unmask {block stream : Bytes} (clear : trimTop bits block = block)
    (enough : block.length ≤ stream.length) :
    trimTop bits (Bytes.xor (trimTop bits (Bytes.xor block stream)) stream) = block := by
  have masked : (Bytes.xor block stream).length ≤ stream.length := by
    rw [Bytes.length_xor]
    exact Nat.min_le_right _ _
  rw [trimTop_xor masked, Bytes.xor_xor_cancel enough, clear]

/-- The one byte in front of the salt stays when the top bits are cleared: a text of `bits` bits
reaches into the first byte of the block. -/
theorem trimTop_block {zeros size tail : Nat} (length : zeros + salt.length + 1 = size)
    (reaches : 8 * (size + tail) ≤ bits + 7) :
    trimTop (bits - 8 * tail) (List.replicate zeros 0 ++ 0x01 :: salt) = List.replicate zeros 0 ++ 0x01 :: salt := by
  have low {exponent : Nat} (positive : 0 < exponent) : 1 < Nat.pow 2 exponent :=
    Nat.one_lt_two_pow (Nat.pos_iff_ne_zero.mp positive)
  cases zeros with
  | zero =>
      apply trimTop_of_lt
      apply low
      omega
  | succ zeros =>
      apply trimTop_of_lt
      exact Nat.pow_pos (by decide)

theorem length_digest_le (hash : Kind) (message : Bytes) : 20 ≤ (hash.digest message).length := by
  rw [hash.length_digest]
  cases hash <;> decide

/-- A salted padding is accepted for the message that it was made of. -/
theorem accepts_encode (sized : salt.length = hash.size) (padded : encode? hash bits salt message = some encoded) :
    accepts hash bits message encoded = true ∧ encoded.length = (bits + 7) / 8 := by
  unfold encode? at padded
  dsimp only at padded
  split at padded
  · cases padded
  · rename_i fits
    obtain ⟨digest, digested⟩ :
        ∃ digest, saltedDigest hash (hash.digest message) salt = digest := ⟨_, rfl⟩
    have digestLength : digest.length = hash.size := by rw [← digested, saltedDigest, hash.length_digest]
    obtain ⟨zeros, filled⟩ : ∃ zeros, (bits + 7) / 8 - salt.length - hash.size - 2 = zeros := ⟨_, rfl⟩
    obtain ⟨block, placed⟩ : ∃ block, List.replicate zeros 0 ++ 0x01 :: salt = block := ⟨_, rfl⟩
    obtain ⟨stream, masking⟩ : ∃ stream, mask hash.digest block.length digest = stream := ⟨_, rfl⟩
    obtain ⟨masked, trimmed⟩ :
        ∃ masked, trimTop (bits - 8 * (hash.size + 1)) (Bytes.xor block stream) = masked := ⟨_, rfl⟩
    rw [filled, digested, placed, masking, trimmed] at padded
    obtain rfl := Option.some.inj padded
    have blockLength : block.length = (bits + 7) / 8 - hash.size - 1 := by
      rw [← placed, List.length_append, List.length_replicate, List.length_cons]
      omega
    have whole : zeros + salt.length + 1 = block.length := by
      rw [← placed, List.length_append, List.length_replicate, List.length_cons, Nat.add_assoc]
    have streamLength : block.length ≤ stream.length := by
      rw [← masking, length_mask (length_digest_le hash)]
    have maskedLength : masked.length = block.length := by
      rw [← trimmed, length_trimTop, Bytes.length_xor, Nat.min_eq_left streamLength]
    have clear : trimTop (bits - 8 * (hash.size + 1)) block = block := by
      rw [← placed]
      apply trimTop_block whole
      omega
    have unmasked : trimTop (bits - 8 * (hash.size + 1)) (Bytes.xor masked stream) = block :=
      trimmed ▸ trimTop_unmask clear streamLength
    have zerosBack : block.length - hash.size - 1 = zeros := by omega
    have topCleared : trimTop (bits - 8 * (hash.size + 1)) masked = masked := by rw [← trimmed, trimTop_trimTop]
    have long : 2 * hash.size + 2 ≤ (bits + 7) / 8 := by omega
    have blockFront : block.take (zeros + 1) = List.replicate zeros 0 ++ [0x01] := by
      rw [← placed, List.append_cons]
      exact List.take_left' (by simp)
    have blockBack : block.drop (zeros + 1) = salt := by
      rw [← placed, List.append_cons]
      exact List.drop_left' (by simp)
    constructor
    · rw [accepts, ← blockLength]
      simp only [List.append_assoc, List.take_left' maskedLength, List.drop_left' maskedLength,
        List.take_left' digestLength, masking, unmasked, zerosBack, topCleared, blockFront, blockBack, digested,
        decide_eq_true long, beq_self_eq_true, Bool.and_true]
      simp
    · rw [List.length_append, List.length_append, maskedLength, digestLength, List.length_singleton]
      omega

theorem verify_sign (consistent : key.Consistent) (sized : salt.length = hash.size)
    (signed : sign key hash salt message = .ok signature) :
    verify key.toPublic hash message signature = true := by
  unfold sign at signed
  split at signed
  · cases signed
  · rename_i encoded padded
    obtain ⟨accepted, length⟩ := accepts_encode sized padded
    obtain ⟨result, applied, rfl⟩ := map_eq_ok.mp signed
    obtain ⟨below, opened⟩ := opens_of_applyChecked consistent applied
    have fits : Bytes.toNat encoded < Nat.pow 2 (8 * ((bitCount key.n - 1 + 7) / 8)) := by
      have spelled := Bytes.toNat_lt encoded
      rw [length] at spelled
      exact Nat.lt_of_lt_of_eq spelled (Nat.pow_mul 2 8 _).symm
    have back := Bytes.ofNat_toNat encoded
    rw [length] at back
    have modulus : key.toPublic.n = key.n := rfl
    rw [verify, opened, modulus, back, accepted, Bytes.length_ofNat, decide_eq_true below, decide_eq_true fits,
      beq_self_eq_true]
    rfl

end Pss

end Rsa

namespace Signature

theorem trusted_rsaPrivate (algorithm : SignatureAlgorithm) {key : Rsa.PrivateKey} (consistent : key.Consistent) :
    Trusted algorithm (.rsaPrivate key) := by
  cases algorithm with
  | pkcs1 hash =>
      intro message signature signed
      exact Rsa.Pkcs1.verify_sign consistent signed
  | pss hash =>
      intro salt message signature sized signed
      exact Rsa.Pss.verify_sign consistent sized signed
  | hmac hash => trivial
  | ecdsa curve => trivial
  | eddsa => trivial

theorem exists_sign_pkcs1 {hash : Sha2.Kind} {own : Rsa.PrivateKey} {key : Key} (draws : Draws) (message : Bytes)
    (secret : key.material = .rsaPrivate own) (inverts : own.Inverts) (room : hash.size + 30 ≤ own.toPublic.size) :
    ∃ signature, sign (.pkcs1 hash) key draws message = .ok signature := by
  obtain ⟨signature, signed⟩ := Rsa.Pkcs1.exists_sign inverts room
  refine ⟨signature, ?_⟩
  simp only [sign, secret]
  exact mapError_eq_ok.mpr signed

end Signature

end WebToken
