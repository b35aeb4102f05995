import WebToken.Checked
import WebToken.Proofs.Cipher.Gcm
import WebToken.Rsa.Encryption

/-!
Decrypting with an RSA key undoes encrypting to its public half: a padded message spells a number
below the modulus, and taking the padding off gives the message back. Only the two operations on
numbers are trusted to undo each other.
-/

namespace WebToken.Rsa

theorem lt_two_pow_bitCount (number : Nat) : number < Nat.pow 2 (bitCount number) := by
  unfold bitCount
  split
  · simp [*]
  · exact Nat.lt_log2_self

theorem modulus_lt (key : PublicKey) : key.n < Nat.pow 256 key.size := by
  have bits : bitCount key.n ≤ 8 * key.size := by
    rw [PublicKey.size]
    omega
  calc key.n
    _ < Nat.pow 2 (bitCount key.n) := lt_two_pow_bitCount key.n
    _ ≤ Nat.pow 2 (8 * key.size) := Nat.pow_le_pow_right (by decide) bits
    _ = Nat.pow 256 key.size := Nat.pow_mul 2 8 key.size

/-- A text as long as the modulus that begins with a zero byte spells a number below it. -/
theorem toNat_lt_modulus {key : PublicKey} {text : Bytes} (sized : text.length + 1 = key.size) :
    Bytes.toNat (0x00 :: text) < key.n := by
  have nonzero : key.n ≠ 0 := by
    intro zero
    rw [PublicKey.size, zero] at sized
    cases sized
  have bits : 8 * text.length ≤ key.n.log2 := by
    rw [PublicKey.size, bitCount, if_neg nonzero] at sized
    omega
  calc Bytes.toNat (0x00 :: text)
    _ = Bytes.toNat text := by simp [Bytes.toNat_cons]
    _ < Nat.pow 256 text.length := Bytes.toNat_lt text
    _ = Nat.pow 2 (8 * text.length) := (Nat.pow_mul 2 8 text.length).symm
    _ ≤ Nat.pow 2 key.n.log2 := Nat.pow_le_pow_right (by decide) bits
    _ ≤ key.n := Nat.log2_self_le nonzero

def PrivateKey.Inverts (key : PrivateKey) : Prop :=
  ∀ number < key.n, key.applyChecked (key.toPublic.apply number) = .ok number

/-- A text as long as the modulus that begins with a zero byte is recovered from its encryption. -/
theorem applyChecked_apply {key : PrivateKey} {text : Bytes} (inverts : key.Inverts)
    (sized : text.length + 1 = key.toPublic.size) :
    key.applyChecked (Bytes.toNat (Bytes.ofNat key.toPublic.size
        (key.toPublic.apply (Bytes.toNat (0x00 :: text))))) = .ok (Bytes.toNat (0x00 :: text)) := by
  have below : Bytes.toNat (0x00 :: text) < key.n := toNat_lt_modulus sized
  have fits : key.toPublic.apply (Bytes.toNat (0x00 :: text)) < Nat.pow 256 key.toPublic.size :=
    Nat.lt_trans (Modular.power_lt _ _ (Nat.zero_lt_of_lt below)) (modulus_lt key.toPublic)
  rw [Bytes.toNat_ofNat, Nat.mod_eq_of_lt fits]
  exact inverts _ below

theorem ofNat_toNat_text {key : PublicKey} {text : Bytes} (sized : text.length + 1 = key.size) :
    Bytes.ofNat key.size (Bytes.toNat (0x00 :: text)) = 0x00 :: text := by
  rw [← sized]
  exact Bytes.ofNat_toNat (0x00 :: text)

namespace Pkcs1

theorem unpad?_padded {padding : Bytes} (long : 8 ≤ padding.length) (nonzero : ∀ byte ∈ padding, byte ≠ 0)
    (message : Bytes) :
    unpad? (0x00 :: 0x02 :: (padding ++ 0x00 :: message)) = some message := by
  have kept : ∀ byte ∈ padding, (byte != 0) = true := by simpa using nonzero
  simp [unpad?, List.takeWhile_append_of_pos kept, List.dropWhile_append_of_pos kept, long]

/-- A message is decrypted from what a padding without zero bytes gives. -/
theorem decrypt_encrypt {key : PrivateKey} {padding message ciphertext : Bytes} (inverts : key.Inverts)
    (sized : padding.length = paddingLength key.toPublic message) (nonzero : ∀ byte ∈ padding, byte ≠ 0)
    (made : encrypt key.toPublic padding message = .ok ciphertext) :
    decrypt key ciphertext = .ok message := by
  rw [encrypt] at made
  split at made
  · cases made
  · rename_i fits
    obtain rfl := Except.ok.inj made
    rw [overhead] at fits
    rw [paddingLength] at sized
    have long : 8 ≤ padding.length := by omega
    have length : (0x02 :: (padding ++ 0x00 :: message)).length + 1 = key.toPublic.size := by
      simp only [List.length_cons, List.length_append]
      omega
    rw [decrypt]
    simp only [List.cons_append, applyChecked_apply inverts length, ok_bind, ofNat_toNat_text length,
      unpad?_padded long nonzero]

end Pkcs1

theorem length_flatMap_least {α : Type} {least : Nat} {write : α → Bytes}
    (long : ∀ item, least ≤ (write item).length) (items : List α) :
    items.length * least ≤ (items.flatMap write).length := by
  induction items with
  | nil => exact Nat.le_of_eq (Nat.zero_mul least)
  | cons item items ih =>
      have first := long item
      rw [List.flatMap_cons, List.length_append, List.length_cons, Nat.succ_mul]
      omega

theorem length_mask {digest : Bytes → Bytes} (long : ∀ message, 20 ≤ (digest message).length) (length : Nat)
    (seed : Bytes) : (mask digest length seed).length = length := by
  have enough := length_flatMap_least (fun counter => long (seed ++ Bytes.ofNat 4 counter))
    (List.range ((length + 19) / 20))
  rw [List.length_range] at enough
  rw [mask, List.length_take]
  omega

namespace Oaep

theorem Hash.length_digest (hash : Hash) (message : Bytes) : (hash.digest message).length = hash.size := by
  cases hash with
  | sha1 => exact Bytes.length_flatMap_write (fun word : UInt32 => Bytes.length_ofNat 4 word.toNat) _
  | sha256 => exact Bytes.length_flatMap_write (fun word : UInt32 => Bytes.length_ofNat 4 word.toNat) _

theorem Hash.digest_long (hash : Hash) (message : Bytes) : 20 ≤ (hash.digest message).length := by
  rw [hash.length_digest]
  cases hash <;> decide

theorem unpad?_padded (hash : Hash) (zeros : Nat) (message : Bytes) :
    unpad? hash (hash.digest [] ++ List.replicate zeros 0 ++ 0x01 :: message) = some message := by
  have digest := hash.length_digest []
  have zero : ∀ byte ∈ List.replicate zeros (0 : UInt8), (byte == 0) = true := by
    intro byte present
    rw [List.eq_of_mem_replicate present]
    rfl
  rw [unpad?, List.append_assoc, List.take_left' digest, List.drop_left' digest, if_pos rfl,
    List.dropWhile_append_of_pos zero]
  rfl

/-- A message is decrypted from what a seed as long as a digest gives. -/
theorem decrypt_encrypt {key : PrivateKey} {hash : Hash} {seed message ciphertext : Bytes}
    (inverts : key.Inverts) (sized : seed.length = hash.size)
    (made : encrypt key.toPublic hash seed message = .ok ciphertext) :
    decrypt key hash ciphertext = .ok message := by
  rw [encrypt] at made
  split at made
  · cases made
  · rename_i fits
    obtain rfl := Except.ok.inj made
    obtain ⟨zeros, filled⟩ : ∃ zeros, key.toPublic.size - message.length - 2 * hash.size - 2 = zeros := ⟨_, rfl⟩
    obtain ⟨block, padded⟩ :
        ∃ block, hash.digest [] ++ List.replicate zeros 0 ++ 0x01 :: message = block := ⟨_, rfl⟩
    have blockLength : block.length + hash.size + 1 = key.toPublic.size := by
      rw [← padded, List.length_append, List.length_append, hash.length_digest, List.length_replicate,
        List.length_cons]
      omega
    obtain ⟨maskedBlock, masked⟩ :
        ∃ maskedBlock, Bytes.xor block (mask hash.digest block.length seed) = maskedBlock := ⟨_, rfl⟩
    have maskedLength : maskedBlock.length = block.length := by
      rw [← masked, Bytes.length_xor, length_mask hash.digest_long, Nat.min_self]
    obtain ⟨maskedSeed, hidden⟩ :
        ∃ maskedSeed, Bytes.xor seed (mask hash.digest hash.size maskedBlock) = maskedSeed := ⟨_, rfl⟩
    have hiddenLength : maskedSeed.length = hash.size := by
      rw [← hidden, Bytes.length_xor, length_mask hash.digest_long, sized, Nat.min_self]
    have length : (maskedSeed ++ maskedBlock).length + 1 = key.toPublic.size := by
      rw [List.length_append]
      omega
    -- Both masks are taken off by adding them a second time.
    have seedBack : Bytes.xor maskedSeed (mask hash.digest hash.size maskedBlock) = seed := by
      rw [← hidden, Bytes.xor_xor_cancel (by rw [length_mask hash.digest_long, sized])]
    have blockBack : Bytes.xor maskedBlock (mask hash.digest maskedBlock.length seed) = block := by
      rw [maskedLength, ← masked, Bytes.xor_xor_cancel (by rw [length_mask hash.digest_long])]
    have accepted : ¬ (key.toPublic.size ≠ key.toPublic.size || key.toPublic.size < 2 * hash.size + 2) = true := by
      simp
      omega
    have unpadded : unpad? hash block = some message := padded ▸ unpad?_padded hash zeros message
    rw [decrypt]
    simp only [filled, padded, masked, hidden, List.cons_append, Bytes.length_ofNat, if_neg accepted,
      applyChecked_apply inverts length, ok_bind, ofNat_toNat_text length, List.take_left' hiddenLength,
      List.drop_left' hiddenLength, seedBack, blockBack, unpadded]

end Oaep

end WebToken.Rsa
