import WebToken.Checked
import WebToken.Json.Document
import WebToken.Json.Value
import WebToken.Proofs.Text.Utf8

/-!
Whole numbers: the decimal text of a number of 64 bits is scanned as its digits and read as the
number.
-/

namespace WebToken.Json

def Numeral.ofWhole (number : Int) : Numeral :=
  ⟨number < 0, (Nat.toDigits 10 number.natAbs).map fun c => c.toNat - 0x30, [], none⟩

namespace Numeral

theorem takeWhole_of_fits {start : Nat} {digits : List Nat}
    (fits : digits.foldl (fun number digit => number * 10 + digit) start ≤ maxSignificand) :
    takeWhole start digits = (digits.foldl (fun number digit => number * 10 + digit) start, 0) := by
  have grows (digits : List Nat) (start : Nat) :
      start ≤ digits.foldl (fun number digit => number * 10 + digit) start := by
    induction digits generalizing start with
    | nil => exact Nat.le_refl start
    | cons digit digits ih => exact Nat.le_trans (by omega) (ih (start * 10 + digit))
  induction digits generalizing start with
  | nil => rfl
  | cons digit digits ih =>
      have bound : ¬start * 10 + digit > maxSignificand :=
        Nat.not_lt_of_le (Nat.le_trans (grows digits _) fits)
      simp only [takeWhole, if_neg bound]
      exact ih fits

theorem foldl_digits (chars : List Char) (start : Nat) :
    (chars.map fun c => c.toNat - 0x30).foldl (fun number digit => number * 10 + digit) start =
      Nat.ofDigitChars 10 chars start := by
  rw [Nat.ofDigitChars_eq_foldl, List.foldl_map]
  simp only [Nat.mul_comm]
  rfl

theorem takeWhole_ofWhole {number : Int} (fits : number.natAbs ≤ maxSignificand) :
    takeWhole 0 (ofWhole number).whole = (number.natAbs, 0) := by
  have sum : (ofWhole number).whole.foldl (fun number digit => number * 10 + digit) 0 = number.natAbs := by
    rw [ofWhole, foldl_digits, Nat.ofDigitChars_ten_toDigits]
  rw [takeWhole_of_fits (by rw [sum]; exact fits), sum]

theorem value?_ofWhole {number : Int} (low : -(Nat.pow 2 63 : Nat) ≤ number) (high : number < (Nat.pow 2 64 : Nat)) :
    (ofWhole number).value? = some (.whole number) := by
  rw [Nat.pow_eq] at low high
  have fits : number.natAbs ≤ maxSignificand := by
    simp only [maxSignificand, Nat.pow_eq]
    omega
  rw [value?, takeWhole_ofWhole fits]
  by_cases negative : number < 0
  · have sized : 1 ≤ number.natAbs ∧ number.natAbs ≤ Nat.pow 2 63 := by
      rw [Nat.pow_eq]
      omega
    have same : -(number.natAbs : Int) = number := by omega
    simp only [ofWhole, negative, decide_true, Bool.not_true, Bool.false_eq_true, if_false, sized, Bool.and_self,
      if_true, same]
  · have same : (number.natAbs : Int) = number := by omega
    simp only [ofWhole, negative, decide_false, Bool.not_false, if_true, same]

end Numeral

namespace Scan

variable {rest : Bytes}

/-- A value may end where the text ends and in front of a comma or a closing bracket. -/
def Delimited (rest : Bytes) : Prop :=
  rest = [] ∨ ∃ mark after, rest = mark :: after ∧ (mark = 0x2C ∨ mark = 0x5D ∨ mark = 0x7D)

theorem digit_bounds {c : Char} (decimal : c.isDigit = true) : 0x30 ≤ c.toNat ∧ c.toNat ≤ 0x39 := by
  simpa [Char.isDigit, UInt32.le_iff_toNat_le] using decimal

theorem encodeChar_digit {c : Char} (decimal : c.isDigit = true) :
    ∃ byte : UInt8, String.utf8EncodeChar c = [byte] ∧ byte.toNat = c.toNat := by
  obtain ⟨_, most⟩ := digit_bounds decimal
  have fits : c.toNat < UInt8.size := Nat.lt_of_le_of_lt most (by decide)
  exact ⟨UInt8.ofNat c.toNat, Utf8.encodeChar_ascii (by omega), UInt8.toNat_ofNat_of_lt' fits⟩

/-- The digits end where something else stands. -/
theorem digits_ofChars {chars : List Char} (decimal : ∀ c ∈ chars, c.isDigit = true)
    (delimited : Delimited rest) :
    digits (Bytes.ofChars chars ++ rest) = (chars.map fun c => c.toNat - 0x30, rest) := by
  induction chars with
  | nil =>
      rcases delimited with rfl | ⟨mark, after, rfl, rfl | rfl | rfl⟩ <;> rfl
  | cons c chars ih =>
      obtain ⟨first, others⟩ := List.forall_mem_cons.mp decimal
      obtain ⟨byte, encoded, same⟩ := encodeChar_digit first
      have bounds := digit_bounds first
      have found : (0x30 ≤ byte && byte ≤ 0x39) = true := by
        simp only [UInt8.le_iff_toNat_le, same, UInt8.reduceToNat]
        simpa using bounds
      have following := ih others
      simp only [digits, Prod.mk.injEq] at following ⊢
      rw [Bytes.ofChars_cons, encoded, List.cons_append, List.nil_append, List.cons_append,
        List.takeWhile_cons, List.dropWhile_cons, if_pos found, if_pos found, List.map_cons, following.1, same]
      exact ⟨rfl, following.2⟩

theorem toDigits_decimal (number : Nat) : ∀ c ∈ Nat.toDigits 10 number, c.isDigit = true :=
  fun _ present => Nat.isDigit_of_mem_toDigits (by decide) (by decide) present

theorem exists_toDigits_eq_cons (number : Nat) :
    ∃ first others, Nat.toDigits 10 number = first :: others ∧ (first.toNat = 0x30 → others = []) := by
  induction number using Nat.strongRecOn with
  | ind number ih =>
      by_cases small : number < 10
      · exact ⟨_, [], Nat.toDigits_of_lt_base small, fun _ => rfl⟩
      · obtain ⟨first, others, spelled, single⟩ := ih (number / 10) (by omega)
        rw [Nat.toDigits_of_base_le (by decide) (by omega), spelled]
        refine ⟨first, others ++ [(number % 10).digitChar], rfl, fun zero => ?_⟩
        have value := Nat.ofDigitChars_ten_toDigits (n := number / 10)
        rw [spelled, single zero, Nat.ofDigitChars_cons, Nat.ofDigitChars_nil, zero] at value
        exact absurd value (by simp; omega)

theorem fraction_delimited (delimited : Delimited rest) : fraction .ended rest = .ok ([], rest) := by
  rcases delimited with rfl | ⟨mark, after, rfl, rfl | rfl | rfl⟩ <;> rfl

theorem exponent_delimited (delimited : Delimited rest) : exponent .ended rest = .ok (none, rest) := by
  rcases delimited with rfl | ⟨mark, after, rfl, rfl | rfl | rfl⟩ <;> rfl

theorem unsigned_toDigits (negative : Bool) (number : Nat) (delimited : Delimited rest) :
    unsigned .ended negative (Bytes.ofChars (Nat.toDigits 10 number) ++ rest) =
      .ok (⟨negative, (Nat.toDigits 10 number).map fun c => c.toNat - 0x30, [], none⟩, rest) := by
  obtain ⟨first, others, spelled, single⟩ := exists_toDigits_eq_cons number
  have decimal := toDigits_decimal number
  have found := digits_ofChars decimal delimited
  rw [spelled] at decimal found ⊢
  have bounds := digit_bounds (decimal first List.mem_cons_self)
  rw [unsigned, found]
  simp only [List.map_cons]
  split
  · rename_i none
    cases none
  · rename_i second after leading
    have zero := (List.cons.inj leading).1
    rw [single (by omega)] at leading
    cases (List.cons.inj leading).2
  · rw [fraction_delimited delimited, ok_bind, exponent_delimited delimited, ok_bind]
    have sound : (rest.isEmpty && decide (Fault.ended = Fault.unreadable)) = false := Bool.and_false _
    dsimp only
    rw [sound]
    rfl

theorem exists_ofChars_toDigits (number : Nat) :
    ∃ (first : UInt8) (others : Bytes), Bytes.ofChars (Nat.toDigits 10 number) = first :: others ∧
      0x30 ≤ first.toNat ∧ first.toNat ≤ 0x39 := by
  obtain ⟨first, others, spelled, _⟩ := exists_toDigits_eq_cons number
  have decimal := toDigits_decimal number first (spelled ▸ List.mem_cons_self)
  obtain ⟨byte, encoded, same⟩ := encodeChar_digit decimal
  refine ⟨byte, Bytes.ofChars others, ?_, same ▸ digit_bounds decimal⟩
  rw [spelled, Bytes.ofChars_cons, encoded]
  rfl

/-- The text of a whole number is scanned as its digits. -/
theorem numeral_whole (number : Int) (delimited : Delimited rest) :
    numeral .ended (Bytes.ofChars (Text.whole number) ++ rest) = .ok (Numeral.ofWhole number, rest) := by
  rw [Text.whole, Numeral.ofWhole]
  by_cases negative : number < 0
  · rw [if_pos negative, Bytes.ofChars_cons, List.append_assoc]
    simp only [negative]
    exact unsigned_toDigits true number.natAbs delimited
  · obtain ⟨first, others, spelled, low, _⟩ := exists_ofChars_toDigits number.natAbs
    have found := unsigned_toDigits false number.natAbs delimited
    have unmarked : first ≠ 0x2D := fun marked => absurd (marked ▸ low) (by decide)
    rw [if_neg negative]
    simp only [negative]
    rw [spelled] at found ⊢
    exact (numeral.eq_2 .ended _ fun after starts => unmarked (List.cons.inj starts).1).trans found

end Scan

end WebToken.Json
