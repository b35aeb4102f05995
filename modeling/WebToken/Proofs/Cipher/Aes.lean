import Mathlib.Data.Fintype.EquivFin
import WebToken.Cipher.Aes

/-!
Encrypting and decrypting a block undo each other, one layer after the other. The matrix of `mixColumn`
is its own fourth power's inverse: its square is the matrix that `unmixColumn` starts with, and that one
is its own inverse.
-/

namespace WebToken.Aes

theorem xor_xor_cancel (a b : UInt8) : a ^^^ (a ^^^ b) = b := by
  rw [← UInt8.xor_assoc, UInt8.xor_self, UInt8.zero_xor]

theorem xor_left_comm (a b c : UInt8) : a ^^^ (b ^^^ c) = b ^^^ (a ^^^ c) := by
  rw [← UInt8.xor_assoc, UInt8.xor_comm a b, UInt8.xor_assoc]

theorem mem_of_testBit {bytes : Bytes} {number : Nat} {start : Nat}
    (marked : (bytes.foldl (fun mask byte => mask ||| 1 <<< byte.toNat) start).testBit number = true) :
    start.testBit number = true ∨ ∃ byte ∈ bytes, byte.toNat = number := by
  induction bytes generalizing start with
  | nil => exact Or.inl marked
  | cons byte bytes ih =>
      rcases ih marked with before | ⟨other, present, same⟩
      · rw [Nat.testBit_or, Bool.or_eq_true, Nat.one_shiftLeft, Nat.testBit_two_pow] at before
        rcases before with before | here
        · exact Or.inl before
        · exact Or.inr ⟨byte, List.mem_cons_self, of_decide_eq_true here⟩
      · exact Or.inr ⟨other, List.mem_cons_of_mem _ present, same⟩

theorem mem_substitutionTable (byte : UInt8) : byte ∈ substitutionTable.toList := by
  have all : substitutionTable.toList.foldl (fun mask byte => mask ||| 1 <<< byte.toNat) 0 = 2 ^ 256 - 1 := by
    decide +kernel
  have marked : (2 ^ 256 - 1).testBit byte.toNat = true := by
    rw [Nat.testBit_two_pow_sub_one]
    exact decide_eq_true byte.toNat_lt
  rw [← all] at marked
  rcases mem_of_testBit marked with before | ⟨other, present, same⟩
  · rw [Nat.zero_testBit] at before
    cases before
  · exact UInt8.toNat_inj.mp same ▸ present

theorem restore_eq (byte : UInt8) : restore byte = UInt8.ofNat (substitutionTable.toList.idxOf byte) := by
  have inside : byte.toNat < 256 := byte.toNat_lt
  simp [restore, inverseTable, inside]

theorem substitute_restore (byte : UInt8) : substitute (restore byte) = byte := by
  have found := List.idxOf_lt_length_of_mem (mem_substitutionTable byte)
  have size : substitutionTable.size = 256 := by decide +kernel
  have inside : substitutionTable.toList.idxOf byte < 256 := size ▸ found
  rw [restore_eq, substitute, UInt8.toNat_ofNat_of_lt' inside, Array.getD_eq_getD_getElem?,
    Array.getElem?_eq_getElem (size.symm ▸ inside), Option.getD_some, ← Array.getElem_toList]
  exact List.getElem_idxOf found

/-- A table that holds every byte holds none twice. -/
theorem restore_substitute (byte : UInt8) : restore (substitute byte) = byte := by
  have finite : Finite UInt8 := Finite.of_injective UInt8.toFin fun _ _ => UInt8.toFin_inj.mp
  have surjective : Function.Surjective substitute := fun byte => ⟨restore byte, substitute_restore byte⟩
  exact Finite.injective_iff_surjective.mpr surjective (substitute_restore (substitute byte))

theorem twice_eq (byte : UInt8) :
    twice byte = (byte <<< 1) ^^^ (if byte.toBitVec.msb then 0x1B else 0) := by
  have high : byte.toBitVec.msb = decide (128 ≤ byte.toNat) := BitVec.msb_eq_decide byte.toBitVec
  have low : byte < 0x80 ↔ byte.toNat < 128 := UInt8.lt_iff_toNat_lt
  rw [twice, high]
  by_cases small : byte.toNat < 128
  · simp [low, small, Nat.not_le_of_gt small]
  · simp [low, small, Nat.le_of_not_lt small]

/-- Doubling is linear. -/
theorem twice_xor (a b : UInt8) : twice (a ^^^ b) = twice a ^^^ twice b := by
  rw [twice_eq, twice_eq, twice_eq, UInt8.toBitVec_xor, BitVec.msb_xor, UInt8.shiftLeft_xor]
  cases a.toBitVec.msb <;> cases b.toBitVec.msb <;>
    simp [UInt8.xor_assoc, UInt8.xor_comm, xor_left_comm]

def squareColumn (column : Column) : Column :=
  let ⟨a, b, c, d⟩ := column
  let even := twice (twice (a ^^^ c))
  let odd := twice (twice (b ^^^ d))
  ⟨a ^^^ even, b ^^^ odd, c ^^^ even, d ^^^ odd⟩

theorem mixColumn_mixColumn (column : Column) : mixColumn (mixColumn column) = squareColumn column := by
  obtain ⟨a, b, c, d⟩ := column
  simp only [mixColumn, squareColumn, twice_xor, Column.mk.injEq]
  refine ⟨?_, ?_, ?_, ?_⟩ <;>
    simp only [UInt8.xor_assoc, UInt8.xor_comm, xor_left_comm, xor_xor_cancel, UInt8.xor_self, UInt8.zero_xor]

theorem squareColumn_squareColumn (column : Column) : squareColumn (squareColumn column) = column := by
  obtain ⟨a, b, c, d⟩ := column
  simp only [squareColumn, twice_xor, Column.mk.injEq]
  refine ⟨?_, ?_, ?_, ?_⟩ <;>
    simp only [UInt8.xor_assoc, UInt8.xor_comm, xor_left_comm, UInt8.xor_self, UInt8.xor_zero]

theorem unmixColumn_eq (column : Column) : unmixColumn column = mixColumn (squareColumn column) := rfl

theorem unmixColumn_mixColumn (column : Column) : unmixColumn (mixColumn column) = column := by
  rw [unmixColumn_eq, ← mixColumn_mixColumn, mixColumn_mixColumn, mixColumn_mixColumn, squareColumn_squareColumn]

theorem mixColumn_unmixColumn (column : Column) : mixColumn (unmixColumn column) = column := by
  rw [unmixColumn_eq, mixColumn_mixColumn, squareColumn_squareColumn]

theorem sum_sum_cancel (block key : Block) : (block.sum key).sum key = block := by
  have cancel (a b : UInt8) : a ^^^ b ^^^ b = a := by rw [UInt8.xor_assoc, UInt8.xor_self, UInt8.xor_zero]
  simp only [Block.sum, Column.sum, cancel]

theorem map_restore_map_substitute (block : Block) :
    (block.map (·.map substitute)).map (·.map restore) = block := by
  simp only [Block.map, Column.map, restore_substitute]

theorem map_substitute_map_restore (block : Block) :
    (block.map (·.map restore)).map (·.map substitute) = block := by
  simp only [Block.map, Column.map, substitute_restore]

theorem unround_round (key block : Block) : unround key (round block key) = block := by
  have unmixed (block : Block) : (block.map mixColumn).map unmixColumn = block := by
    simp only [Block.map, unmixColumn_mixColumn]
  have rotated (block : Block) : unshiftRows (shiftRows block) = block := rfl
  rw [unround, round, sum_sum_cancel, unmixed, rotated, map_restore_map_substitute]

theorem round_unround (key block : Block) : round (unround key block) key = block := by
  have mixed (block : Block) : (block.map unmixColumn).map mixColumn = block := by
    simp only [Block.map, mixColumn_unmixColumn]
  have rotated (block : Block) : shiftRows (unshiftRows block) = block := rfl
  rw [round, unround, map_substitute_map_restore, rotated, mixed, sum_sum_cancel]

theorem foldr_unround_foldl_round (keys : List Block) (block : Block) :
    keys.foldr unround (keys.foldl round block) = block := by
  induction keys generalizing block with
  | nil => rfl
  | cons key keys ih => rw [List.foldl_cons, List.foldr_cons, ih, unround_round]

theorem foldl_round_foldr_unround (keys : List Block) (block : Block) :
    keys.foldl round (keys.foldr unround block) = block := by
  induction keys with
  | nil => rfl
  | cons key keys ih => rw [List.foldl_cons, List.foldr_cons, round_unround, ih]

/-- Decrypting a block undoes encrypting it, whatever the round keys are. -/
theorem Schedule.decrypt_encrypt (keys : Schedule) (block : Block) : keys.decrypt (keys.encrypt block) = block := by
  have rotated (block : Block) : unshiftRows (shiftRows block) = block := rfl
  simp only [decrypt, encrypt, sum_sum_cancel, rotated, map_restore_map_substitute, foldr_unround_foldl_round]

theorem Schedule.encrypt_decrypt (keys : Schedule) (block : Block) : keys.encrypt (keys.decrypt block) = block := by
  have rotated (block : Block) : shiftRows (unshiftRows block) = block := rfl
  simp only [decrypt, encrypt, sum_sum_cancel, foldl_round_foldr_unround, map_substitute_map_restore, rotated]

@[simp] theorem Column.length_toBytes (column : Column) : column.toBytes.length = 4 := rfl

theorem Column.toBytes_ofBytes {bytes : Bytes} (enough : 4 ≤ bytes.length) :
    (Column.ofBytes bytes).toBytes = bytes.take 4 := by
  match bytes, enough with
  | _ :: _ :: _ :: _ :: _, _ => rfl

@[simp] theorem Block.length_toBytes (block : Block) : block.toBytes.length = 16 := rfl

theorem Block.ofBytes_toBytes (block : Block) (rest : Bytes) :
    Block.ofBytes (block.toBytes ++ rest) = block := rfl

theorem Block.toBytes_ofBytes {bytes : Bytes} (enough : 16 ≤ bytes.length) :
    (Block.ofBytes bytes).toBytes = bytes.take 16 := by
  have column (skipped : Nat) (inside : skipped ≤ 12) :
      (Column.ofBytes (bytes.drop skipped)).toBytes = (bytes.drop skipped).take 4 :=
    Column.toBytes_ofBytes (by rw [List.length_drop]; omega)
  rw [Block.toBytes, Block.ofBytes]
  simp only [column 4 (by decide), column 8 (by decide), column 12 (by decide),
    Column.toBytes_ofBytes (Nat.le_trans (by decide) enough : 4 ≤ bytes.length), ← List.take_add]

end WebToken.Aes
