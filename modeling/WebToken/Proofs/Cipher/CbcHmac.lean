import WebToken.Cipher.CbcHmac
import WebToken.Proofs.Cipher.Aes
import WebToken.Proofs.Hash.Sha2

/-!
Opening in cipher block chaining mode gives back what was sealed, and nothing else opens: the padding is
taken off again, and a text has one padding only; the chain is undone block by block, in both directions;
and the tag is made a second time from the same ciphertext. Opening looks at no byte outside of what it has.
-/

namespace WebToken.CbcHmac

open Aes
open Sha2 (Kind)

theorem length_padded (text : Bytes) : (padded text).length = 16 * (text.length / 16 + 1) := by
  rw [padded, List.length_append, List.length_replicate]
  omega

theorem unpad?_padded (text : Bytes) : unpad? (padded text) = some text := by
  obtain ⟨count, counted⟩ : ∃ count, 16 - text.length % 16 = count := ⟨_, rfl⟩
  have bounds : 1 ≤ count ∧ count ≤ 16 := by omega
  have last : (padded text).getLast? = some (UInt8.ofNat count) := by
    rw [padded, counted, List.getLast?_append, List.getLast?_replicate, if_neg (by omega)]
    rfl
  have number : (UInt8.ofNat count).toNat = count := UInt8.toNat_ofNat_of_lt' (Nat.lt_of_le_of_lt bounds.2 (by decide))
  have kept : (padded text).length - count = text.length := by
    rw [padded, counted, List.length_append, List.length_replicate, Nat.add_sub_cancel]
  rw [unpad?, last]
  simp only [number, kept]
  rw [padded, counted, List.drop_left, List.take_left]
  simp [bounds]

/-- Whole blocks that have their padding taken off get the same padding again. -/
theorem padded_of_unpad? {text plain : Bytes} (whole : text.length % 16 = 0) (taken : unpad? text = some plain) :
    padded plain = text := by
  unfold unpad? at taken
  split at taken
  · cases taken
  · rename_i last _
    dsimp only at taken
    split at taken
    · rename_i sound
      simp only [Bool.and_eq_true, decide_eq_true_eq, List.all_eq_true, beq_iff_eq] at sound
      obtain ⟨⟨⟨least, most⟩, inside⟩, same⟩ := sound
      obtain rfl := Option.some.inj taken
      have kept : (text.take (text.length - last.toNat)).length = text.length - last.toNat :=
        List.length_take_of_le (Nat.sub_le _ _)
      have count : 16 - (text.length - last.toNat) % 16 = last.toNat := by omega
      have filling : text.drop (text.length - last.toNat) = List.replicate last.toNat last := by
        rw [List.eq_replicate_iff, List.length_drop]
        exact ⟨by omega, same⟩
      rw [padded, kept, count, UInt8.ofNat_toNat, ← filling, List.take_append_drop]
    · cases taken

theorem decryptChain_encryptChain (keys : Schedule) (previous : Block) (blocks : List Block) :
    decryptChain keys previous (encryptChain keys previous blocks) = blocks := by
  induction blocks generalizing previous with
  | nil => rfl
  | cons block rest ih =>
      simp only [encryptChain, decryptChain, ih, Schedule.decrypt_encrypt, sum_sum_cancel]

theorem encryptChain_decryptChain (keys : Schedule) (previous : Block) (blocks : List Block) :
    encryptChain keys previous (decryptChain keys previous blocks) = blocks := by
  induction blocks generalizing previous with
  | nil => rfl
  | cons block rest ih =>
      simp only [encryptChain, decryptChain, sum_sum_cancel, Schedule.encrypt_decrypt, ih]

theorem length_encryptChain (keys : Schedule) (previous : Block) (blocks : List Block) :
    (encryptChain keys previous blocks).length = blocks.length := by
  induction blocks generalizing previous with
  | nil => rfl
  | cons block rest ih => simp only [encryptChain, List.length_cons, ih]

theorem length_decryptChain (keys : Schedule) (previous : Block) (blocks : List Block) :
    (decryptChain keys previous blocks).length = blocks.length := by
  induction blocks generalizing previous with
  | nil => rfl
  | cons block rest ih => simp only [decryptChain, List.length_cons, ih]

/-- The bytes of blocks are cut into the same blocks again. -/
theorem blocksOf_flatMap (blocks : List Block) :
    blocksOf ((blocks.flatMap Block.toBytes).length / 16) (blocks.flatMap Block.toBytes) = blocks := by
  have count : (blocks.flatMap Block.toBytes).length / 16 = blocks.length := by
    rw [Bytes.length_flatMap_write Block.length_toBytes, Nat.mul_div_cancel_left _ (by decide)]
  have read := Bytes.pieces_flatMap_write Block.length_toBytes Block.ofBytes_toBytes blocks []
  rw [List.append_nil] at read
  rw [count, blocksOf, read]

/-- Whole blocks are told by their bytes. -/
theorem exists_blocks {bytes : Bytes} (whole : bytes.length % 16 = 0) :
    ∃ blocks : List Block, blocks.flatMap Block.toBytes = bytes :=
  ⟨blocksOf (bytes.length / 16) bytes,
    Bytes.flatMap_write_pieces (fun _ enough => Block.toBytes_ofBytes enough) (by omega)⟩

variable {size : KeySize} {key iv associated ciphertext received plaintext : Bytes}

theorem openText?_eq_some : openText? size key iv associated ciphertext received = some plaintext ↔
    (iv.length = ivSize ∧ ciphertext ≠ [] ∧ ciphertext.length % 16 = 0) ∧
      tag size key associated iv ciphertext = received ∧
      unpad? ((decryptChain (cipherKeys size key) (.ofBytes iv)
        (blocksOf (ciphertext.length / 16) ciphertext)).flatMap Block.toBytes) = some plaintext := by
  unfold openText?
  split
  case isTrue refused =>
      refine ⟨nofun, fun ⟨⟨sized, nonempty, whole⟩, _, _⟩ => ?_⟩
      simp [sized, nonempty, whole] at refused
  case isFalse given =>
      simp only [Bool.or_eq_true, decide_eq_true_eq, not_or, ne_eq, Decidable.not_not, List.isEmpty_iff] at given
      obtain ⟨⟨sized, nonempty⟩, whole⟩ := given
      split
      case isTrue other => exact ⟨nofun, fun ⟨_, same, _⟩ => absurd same other⟩
      case isFalse same => simp [sized, nonempty, whole, Decidable.not_not.mp same]

/-- Opening succeeds exactly on what the plaintext is sealed as, with the same key, initialization vector and
associated data. -/
theorem openText?_eq_some_iff_sealText : openText? size key iv associated ciphertext received = some plaintext ↔
    iv.length = ivSize ∧ sealText size key iv associated plaintext = (ciphertext, received) := by
  rw [openText?_eq_some, sealText]
  constructor
  · rintro ⟨⟨sized, _, whole⟩, rfl, taken⟩
    obtain ⟨blocks, rfl⟩ := exists_blocks whole
    rw [blocksOf_flatMap] at taken
    -- Only the padding that sealing adds is taken off, so the blocks are those of the padded plaintext.
    have text := padded_of_unpad? (by rw [Bytes.length_flatMap_write Block.length_toBytes, Nat.mul_mod_right]) taken
    rw [text, blocksOf_flatMap, encryptChain_decryptChain]
    exact ⟨sized, rfl⟩
  · rintro ⟨sized, made⟩
    obtain ⟨rfl, rfl⟩ := Prod.mk.inj made
    have length := length_padded plaintext
    have whole : (padded plaintext).length % 16 = 0 := by omega
    obtain ⟨blocks, text⟩ := exists_blocks whole
    rw [← text, blocksOf_flatMap, blocksOf_flatMap, decryptChain_encryptChain, text, unpad?_padded]
    have same := Bytes.length_flatMap_write Block.length_toBytes
      (encryptChain (cipherKeys size key) (.ofBytes iv) blocks)
    rw [length_encryptChain, ← Bytes.length_flatMap_write Block.length_toBytes, text] at same
    refine ⟨⟨sized, List.ne_nil_of_length_pos ?_, ?_⟩, rfl, rfl⟩ <;> omega

/-- Opening what was sealed with the same key, initialization vector and associated data. -/
theorem openText?_sealText (size : KeySize) (key associated plaintext : Bytes) {iv : Bytes}
    (sized : iv.length = ivSize) :
    openText? size key iv associated (sealText size key iv associated plaintext).1
      (sealText size key iv associated plaintext).2 = some plaintext :=
  openText?_eq_some_iff_sealText.mpr ⟨sized, rfl⟩

/-- The length at the end tells where the associated data stops, and the initialization vectors are as long as each
other. -/
theorem authenticated_inj {associated other iv another ciphertext text : Bytes}
    (short : associated.length < Nat.pow 2 61) (otherShort : other.length < Nat.pow 2 61)
    (sized : iv.length = another.length)
    (same : authenticated associated iv ciphertext = authenticated other another text) :
    associated = other ∧ iv = another ∧ ciphertext = text := by
  have bits {length : Nat} (bound : length < Nat.pow 2 61) : 8 * length < Nat.pow 256 8 :=
    Nat.mul_lt_mul_of_pos_left bound (by decide)
  obtain ⟨front, counted⟩ := List.append_inj' same (by rw [Bytes.length_ofNat, Bytes.length_ofNat])
  have length := Bytes.ofNat_inj 8 (bits short) (bits otherShort) counted
  rw [List.append_assoc, List.append_assoc] at front
  obtain ⟨rfl, rest⟩ := List.append_inj front (by omega)
  obtain ⟨rfl, rfl⟩ := List.append_inj rest sized
  exact ⟨rfl, rfl, rfl⟩

/-- A plaintext is sealed as the blocks that it begins, and one more if it ends with a block. -/
theorem length_sealText (size : KeySize) (key iv associated plaintext : Bytes) :
    (sealText size key iv associated plaintext).1.length = 16 * (plaintext.length / 16 + 1) := by
  have whole := length_padded plaintext
  rw [sealText, Bytes.length_flatMap_write Block.length_toBytes, length_encryptChain, blocksOf, Bytes.length_pieces]
  omega

/-- The keyed hash is twice as long as the tag. -/
theorem length_tag (size : KeySize) (key associated iv ciphertext : Bytes) :
    (tag size key associated iv ciphertext).length = size.bytes := by
  rw [tag, List.length_take, Kind.length_hmac]
  cases size <;> rfl

/-- A block that has all of its bytes. -/
def blockOf? (bytes : Bytes) : Option Block := if bytes.length = 16 then some (.ofBytes bytes) else none

/-- The blocks from the front, `count` of them, if each has all of its bytes. -/
def blocksOf? : (count : Nat) → Bytes → Option (List Block)
  | 0, _ => some []
  | count + 1, bytes => do
      let block ← blockOf? (bytes.take 16)
      let rest ← blocksOf? count (bytes.drop 16)
      return block :: rest

/-- The last `count` bytes of a text that has so many. -/
def lastBytes? (count : Nat) (text : Bytes) : Option Bytes :=
  if count ≤ text.length then some (text.drop (text.length - count)) else none

/-- What `unpad?` gives, unless the padding would begin before the text. -/
def unpadWithin? (text : Bytes) : Option (Option Bytes) := do
  let count := (text.getLastD 0).toNat
  if count = 0 || 16 < count then return none
  let filling ← lastBytes? count text
  return if filling.all (·.toNat = count) then some (text.take (text.length - count)) else none

/-- What `openText?` gives, unless a block or the padding would reach outside of the bytes that are there. The
lengths are looked at in front, and not where they are relied on. -/
def openWithin? (size : KeySize) (key iv associated ciphertext received : Bytes) : Option (Option Bytes) :=
  if iv.length ≠ ivSize || ciphertext.isEmpty || ciphertext.length % 16 ≠ 0 then some none
  else if tag size key associated iv ciphertext ≠ received then some none
  else do
    let first ← blockOf? iv
    let blocks ← blocksOf? (ciphertext.length / 16) ciphertext
    unpadWithin? ((decryptChain (cipherKeys size key) first blocks).flatMap Block.toBytes)

theorem blocksOf?_eq {count : Nat} {bytes : Bytes} (whole : bytes.length = 16 * count) :
    blocksOf? count bytes = some (blocksOf count bytes) := by
  induction count generalizing bytes with
  | zero => rfl
  | succ count ih =>
      have front : blockOf? (bytes.take 16) = some (.ofBytes bytes) := by
        rw [blockOf?, if_pos (List.length_take_of_le (by omega)), ← Block.toBytes_ofBytes (by omega)]
        rfl
      have behind : (bytes.drop 16).length = 16 * count := by
        rw [List.length_drop]
        omega
      rw [blocksOf?, front, ih behind]
      rfl

/-- The padding of a whole block or more begins within the text, whatever its last byte tells. -/
theorem unpadWithin?_eq {text : Bytes} (long : 16 ≤ text.length) : unpadWithin? text = some (unpad? text) := by
  obtain ⟨last, found⟩ : ∃ last, text.getLast? = some last :=
    ⟨_, List.getLast?_eq_some_getLast (List.ne_nil_of_length_pos (by omega))⟩
  have same (byte : UInt8) : decide (byte.toNat = last.toNat) = (byte == last) := by
    rw [Bool.eq_iff_iff, decide_eq_true_eq, beq_iff_eq, UInt8.toNat_inj]
  rw [unpadWithin?, unpad?, found, List.getLastD_eq_getLast?, found, Option.getD_some]
  by_cases sound : 1 ≤ last.toNat ∧ last.toNat ≤ 16
  · obtain ⟨least, most⟩ := sound
    have inside : last.toNat ≤ text.length := Nat.le_trans most long
    have refused : (last.toNat = 0 || 16 < last.toNat) = false := by
      simp
      omega
    simp [refused, lastBytes?, inside, least, most, same]
  · have refused : (last.toNat = 0 || 16 < last.toNat) = true := by
      simp
      omega
    have unsound : (1 ≤ last.toNat && last.toNat ≤ 16) = false := by
      simp
      omega
    simp [refused, unsound]

/-- Opening stays within the bytes that it is given, of whatever lengths they are. -/
theorem openWithin?_eq (size : KeySize) (key iv associated ciphertext received : Bytes) :
    openWithin? size key iv associated ciphertext received =
      some (openText? size key iv associated ciphertext received) := by
  unfold openWithin? openText?
  split
  case isTrue => rfl
  case isFalse given =>
      split
      case isTrue => rfl
      case isFalse =>
          simp only [Bool.or_eq_true, decide_eq_true_eq, not_or, ne_eq, Decidable.not_not, List.isEmpty_iff] at given
          obtain ⟨⟨sized, nonempty⟩, whole⟩ := given
          have positive := List.length_pos_iff.mpr nonempty
          have first : blockOf? iv = some (.ofBytes iv) := if_pos sized
          rw [first, blocksOf?_eq (by omega)]
          refine unpadWithin?_eq ?_
          rw [Bytes.length_flatMap_write Block.length_toBytes, length_decryptChain, blocksOf, Bytes.length_pieces]
          omega

end WebToken.CbcHmac
