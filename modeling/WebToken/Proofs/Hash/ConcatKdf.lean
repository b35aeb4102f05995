import WebToken.Draws
import WebToken.Hash.ConcatKdf
import WebToken.Proofs.Hash.Sha2

/-!
The concatenation key derivation gives as many bytes of the digests as are asked for. Digest after digest is made
until there are enough, with a counter that has room for all of them, and what is digested tells for what purpose.
-/

namespace WebToken.ConcatKdf

/-- Every field has room for its length, and the number for that of the key. -/
structure Purpose.Bounded (purpose : Purpose) : Prop where
  algorithm : purpose.algorithm.length < Nat.pow 2 32
  sender : purpose.sender.length < Nat.pow 2 32
  recipient : purpose.recipient.length < Nat.pow 2 32
  keyLength : purpose.keyLength < Nat.pow 2 29

/-- What is digested with one counter. -/
def input (secret description : Bytes) (counter : Nat) : Bytes := Bytes.ofNat 4 counter ++ secret ++ description

/-- The digests with the counters 1, 2 and so on, one after the other without end. -/
def stream (secret description : Bytes) : ByteSource := fun index =>
  (Sha2.Kind.sha256.digest (input secret description (index / 32 + 1))).getD (index % 32) 0

theorem length_digest (message : Bytes) : (Sha2.Kind.sha256.digest message).length = 32 :=
  Sha2.Kind.length_digest .sha256 message

/-- Puts digests behind what is there until it has `length` bytes, with the counters from `counter` on. There is no
result once the counter has no room in its four bytes. -/
def fill? (secret description : Bytes) (length counter : Nat) (derived : Bytes) : Option Bytes :=
  if derived.length < length then
    if counter + 1 < Nat.pow 2 32 then
      fill? secret description length (counter + 1)
        (derived ++ Sha2.Kind.sha256.digest (input secret description counter))
    else none
  else some derived
termination_by length - derived.length
decreasing_by
  rw [List.length_append, length_digest]
  omega

variable {secret description derived : Bytes} {length counter count : Nat} {purpose other : Purpose}

/-- Each round is short of 32 bytes less, so there are as many rounds as the missing bytes have blocks begun. -/
theorem fill?_eq (room : counter + (length - derived.length + 31) / 32 < Nat.pow 2 32) :
    fill? secret description length counter derived =
      some (derived ++ digests secret description ((length - derived.length + 31) / 32) counter) := by
  fun_induction fill? secret description length counter derived with
  | case1 counter derived short fits ih =>
      have rounds : (length - derived.length + 31) / 32 =
          (length - (derived ++ Sha2.Kind.sha256.digest (input secret description counter)).length + 31) / 32 + 1 := by
        rw [List.length_append, length_digest]
        omega
      rw [ih (by omega), rounds, digests, List.append_assoc, input]
  | case2 counter derived short full => omega
  | case3 counter derived enough =>
      have rounds : (length - derived.length + 31) / 32 = 0 := by omega
      rw [rounds, digests, List.append_nil]

/-- For a key of fewer than 2^29 bytes the counter stays far below what has no room. -/
theorem exists_fill? (secret : Bytes) (bounded : purpose.Bounded) :
    ∃ digests, fill? secret purpose.describe purpose.keyLength 1 [] = some digests ∧
      derive secret purpose = digests.take purpose.keyLength := by
  have room : 1 + (purpose.keyLength - ([] : Bytes).length + 31) / 32 < Nat.pow 2 32 := by
    have few : purpose.keyLength < 2 ^ 29 := bounded.keyLength
    change 1 + (purpose.keyLength + 31) / 32 < 2 ^ 32
    omega
  exact ⟨_, fill?_eq room, rfl⟩

theorem map_getD_range {block : Bytes} (sized : block.length = 32) :
    (List.range 32).map (fun index => block.getD (index % 32) 0) = block := by
  refine List.ext_getElem (by simp [sized]) fun index _ inside => ?_
  have low : index % 32 = index := Nat.mod_eq_of_lt (sized ▸ inside)
  simp [low, inside]

theorem digests_eq (secret description : Bytes) (count first : Nat) :
    digests secret description count first = (List.range (32 * count)).map fun index =>
      (Sha2.Kind.sha256.digest (input secret description (index / 32 + first))).getD (index % 32) 0 := by
  induction count generalizing first with
  | zero => rfl
  | succ count ih =>
      -- The first 32 places are those of the first digest, and behind them every counter is one more.
      have front : (List.range 32).map (fun index =>
          (Sha2.Kind.sha256.digest (input secret description (index / 32 + first))).getD (index % 32) 0) =
          Sha2.Kind.sha256.digest (input secret description first) := by
        refine (List.map_congr_left fun index low => ?_).trans (map_getD_range (length_digest _))
        rw [Nat.div_eq_of_lt (List.mem_range.mp low), Nat.zero_add]
      have behind (index : Nat) : (32 + index) / 32 + first = index / 32 + (first + 1) := by omega
      rw [digests, ih, Nat.mul_succ, Nat.add_comm (32 * count), List.range_add, List.map_append, front, List.map_map,
        ← input]
      simp only [Function.comp_def, behind, Nat.add_mod_left]

/-- As many bytes of the endless digests as are asked for. -/
theorem derive_eq_take (secret : Bytes) (purpose : Purpose) :
    derive secret purpose = (stream secret purpose.describe).take purpose.keyLength := by
  rw [derive, digests_eq, ← List.map_take, List.take_range, Nat.min_eq_left (by omega), ByteSource.take]
  rfl

theorem length_derive (secret : Bytes) (purpose : Purpose) : (derive secret purpose).length = purpose.keyLength := by
  rw [derive_eq_take, ByteSource.length_take]

theorem field_append_inj {text other rest behind : Bytes} (short : text.length < Nat.pow 2 32)
    (otherShort : other.length < Nat.pow 2 32) (same : field text ++ rest = field other ++ behind) :
    text = other ∧ rest = behind := by
  rw [field, field, List.append_assoc, List.append_assoc] at same
  obtain ⟨counted, texts⟩ := List.append_inj same (by rw [Bytes.length_ofNat, Bytes.length_ofNat])
  exact List.append_inj texts (Bytes.ofNat_inj 4 short otherShort counted)

/-- A description tells what it is a description of, field by field. -/
theorem describe_inj (bounded : purpose.Bounded) (otherBounded : other.Bounded)
    (same : purpose.describe = other.describe) : purpose = other := by
  simp only [Purpose.describe, List.append_assoc] at same
  obtain ⟨algorithms, same⟩ := field_append_inj bounded.algorithm otherBounded.algorithm same
  obtain ⟨senders, same⟩ := field_append_inj bounded.sender otherBounded.sender same
  obtain ⟨recipients, same⟩ := field_append_inj bounded.recipient otherBounded.recipient same
  have bits {length : Nat} (bound : length < Nat.pow 2 29) : 8 * length < Nat.pow 2 32 :=
    Nat.mul_lt_mul_of_pos_left bound (by decide)
  have lengths := Bytes.ofNat_inj 4 (bits bounded.keyLength) (bits otherBounded.keyLength) same
  cases purpose
  cases other
  rw [Purpose.mk.injEq]
  exact ⟨algorithms, senders, recipients, Nat.eq_of_mul_eq_mul_left (by decide) lengths⟩

theorem input_inj {later : Nat} (bounded : purpose.Bounded) (otherBounded : other.Bounded)
    (fits : counter < Nat.pow 2 32) (laterFits : later < Nat.pow 2 32)
    (same : input secret purpose.describe counter = input secret other.describe later) :
    counter = later ∧ purpose = other := by
  rw [input, input, List.append_assoc, List.append_assoc] at same
  obtain ⟨counters, rest⟩ := List.append_inj same (by rw [Bytes.length_ofNat, Bytes.length_ofNat])
  exact ⟨Bytes.ofNat_inj 4 fits laterFits counters, describe_inj bounded otherBounded (List.append_cancel_left rest)⟩

end WebToken.ConcatKdf
