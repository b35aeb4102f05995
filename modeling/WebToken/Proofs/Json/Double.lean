import Mathlib.Algebra.Order.Field.Power
import Mathlib.Data.Rat.Floor
import Mathlib.Tactic.Ring
import Mathlib.Tactic.SplitIfs
import WebToken.Json.Double

/-!
Doubles as numbers: what a double is exactly, and that rounding a whole number to a double does not take it below
a power of two.
-/

namespace WebToken.Double

/-- The number that a double is. -/
def value (double : Double) : ℚ :=
  (if double.negative then -(double.numerator : ℚ) else double.numerator) / denominator

theorem floor_eq (double : Double) : double.floor = ⌊double.value⌋ := by
  have signed : (if double.negative then -(double.numerator : ℚ) else double.numerator) =
      ((if double.negative then -Int.ofNat double.numerator else Int.ofNat double.numerator : Int) : ℚ) := by
    split <;> simp only [Int.ofNat_eq_natCast, Int.cast_neg, Int.cast_natCast]
  rw [value, signed, Rat.floor_intCast_div_natCast]
  rfl

section Rounding

variable {number exponent : Nat} {double : Double}

theorem le_roundQuotient (numerator denominator : Nat) :
    numerator / denominator ≤ roundQuotient numerator denominator := by
  unfold roundQuotient
  dsimp only
  split_ifs <;> omega

/-- A place in a binade stands for at least the least number of the binade. -/
theorem le_numerator {scale : Nat} (above : (scale + 1) * binade ≤ double.place) :
    binade * Nat.pow 2 scale ≤ double.numerator := by
  have positive : 0 < binade := Nat.pow_pos (by decide)
  have normal : ¬double.place < binade := by
    have : 1 * binade ≤ (scale + 1) * binade := Nat.mul_le_mul_right _ (by omega)
    omega
  have shift : scale ≤ double.shift := by
    have : scale + 1 ≤ double.place / binade := (Nat.le_div_iff_mul_le positive).mpr above
    rw [Double.shift]
    omega
  rw [numerator, mantissa, if_neg normal]
  exact Nat.mul_le_mul (Nat.le_add_right _ _) (Nat.pow_le_pow_right (by decide) shift)

theorem denominator_eq : denominator = Nat.pow 2 denominator.log2 := by decide +kernel

theorem pow_mul_pow (exponent bits : Nat) : Nat.pow 2 exponent * Nat.pow 2 bits = Nat.pow 2 (exponent + bits) :=
  (Nat.pow_add 2 exponent bits).symm

theorem pow_mul_denominator (exponent : Nat) :
    Nat.pow 2 exponent * denominator = Nat.pow 2 (exponent + denominator.log2) := by
  rw [← pow_mul_pow, ← denominator_eq]

theorem cast_scaled (mantissa shift exponent : Nat) :
    ((mantissa * Nat.pow 2 shift : Nat) : ℚ) / (Nat.pow 2 exponent : Nat) =
      mantissa * (2 : ℚ) ^ ((shift : ℤ) - exponent) := by
  have power (exponent : Nat) : ((Nat.pow 2 exponent : Nat) : ℚ) = (2 : ℚ) ^ (exponent : ℤ) := by
    rw [zpow_natCast]
    exact Nat.cast_pow 2 exponent
  rw [Nat.cast_mul, power, power, mul_div_assoc, ← zpow_sub₀ two_ne_zero]

/-- A double is a whole number with a sign, scaled by a power of two. -/
theorem value_eq_mantissa (double : Double) : double.value =
    (if double.negative then -1 else 1) * double.mantissa * (2 : ℚ) ^ ((double.shift : ℤ) - 1074) := by
  have scaled : (double.numerator : ℚ) / denominator = double.mantissa * (2 : ℚ) ^ ((double.shift : ℤ) - 1074) := by
    -- The power of two that is the denominator is too large to be computed with.
    have exponent : denominator.log2 = 1074 := by decide +kernel
    rw [numerator, denominator_eq, cast_scaled, exponent, Nat.cast_ofNat]
  rw [mul_assoc, ← scaled, value]
  split <;> ring

/-- A magnitude whose mantissa is rounded to 53 bits does not fall below a power of two. -/
theorem pow_le_numerator {wide : Nat} (least : Nat.pow 2 exponent ≤ wide) (aligned : 52 ≤ exponent)
    (place : double.place =
      roundQuotient wide (1 * Nat.pow 2 (wide.log2 - 52)) + (wide.log2 - 52) * binade) :
    Nat.pow 2 exponent ≤ double.numerator := by
  have positive : wide ≠ 0 := Nat.ne_of_gt (Nat.lt_of_lt_of_le (Nat.pow_pos (by decide)) least)
  have log : exponent ≤ wide.log2 := (Nat.le_log2 positive).mpr least
  have split : binade * Nat.pow 2 (wide.log2 - 52) = Nat.pow 2 wide.log2 := by
    rw [binade, pow_mul_pow]
    congr 1
    omega
  have quotient : binade ≤ wide / (1 * Nat.pow 2 (wide.log2 - 52)) := by
    have : 0 < Nat.pow 2 (wide.log2 - 52) := Nat.pow_pos (by decide)
    rw [Nat.one_mul, Nat.le_div_iff_mul_le this, split]
    exact Nat.log2_self_le positive
  have high : (wide.log2 - 52 + 1) * binade ≤ double.place := by
    rw [place, Nat.succ_mul, Nat.add_comm]
    exact Nat.add_le_add_right (Nat.le_trans quotient (le_roundQuotient _ _)) _
  calc Nat.pow 2 exponent ≤ Nat.pow 2 wide.log2 := Nat.pow_le_pow_right (by decide) log
    _ = binade * Nat.pow 2 (wide.log2 - 52) := split.symm
    _ ≤ double.numerator := le_numerator high

/-- Rounding to a double does not fall below a power of two. -/
theorem le_numerator_of_ofQuotient? (above : Nat.pow 2 exponent ≤ number)
    (rounded : ofQuotient? number 1 = some double) : Nat.pow 2 exponent * denominator ≤ double.numerator := by
  have nonzero : number ≠ 0 := Nat.ne_of_gt (Nat.lt_of_lt_of_le (Nat.pow_pos (by decide)) above)
  have place : double.place = nearestPlace number 1 := by
    unfold ofQuotient? at rounded
    dsimp only at rounded
    split at rounded
    · cases rounded
      rfl
    · cases rounded
  simp only [nearestPlace, if_neg nonzero, Nat.div_one] at place
  have aligned : 52 ≤ denominator.log2 := by decide +kernel
  have least : Nat.pow 2 (exponent + denominator.log2) ≤ number * denominator := by
    rw [← pow_mul_denominator]
    exact Nat.mul_le_mul_right _ above
  rw [pow_mul_denominator]
  exact pow_le_numerator least (Nat.le_add_left_of_le aligned) place

end Rounding

section Whole

variable {number : Int} {exponent : Nat} {double : Double}

/-- A whole number keeps its sign and the power of two that it reaches. -/
theorem large_of_ofWhole? (rounded : ofWhole? number = some double) (above : Nat.pow 2 exponent ≤ number.natAbs) :
    ((Nat.pow 2 exponent : Nat) : Int) * Int.ofNat denominator ≤ Int.ofNat double.numerator ∧
      double.negative = decide (number < 0) := by
  obtain ⟨magnitude, nearest, rfl⟩ := Option.map_eq_some_iff.mp rounded
  have large := le_numerator_of_ofQuotient? above nearest
  exact ⟨Int.ofNat_le.mpr large, rfl⟩

theorem denominator_pos : 0 < Int.ofNat denominator := by decide +kernel

theorem le_floor_of_ofWhole? (rounded : ofWhole? number = some double)
    (above : ((Nat.pow 2 exponent : Nat) : Int) ≤ number) : ((Nat.pow 2 exponent : Nat) : Int) ≤ double.floor := by
  have beyond : Nat.pow 2 exponent ≤ number.natAbs := by omega
  obtain ⟨large, sign⟩ := large_of_ofWhole? rounded beyond
  have nonnegative : ¬number < 0 := by omega
  simp only [floor, sign, nonnegative, decide_false, Bool.false_eq_true, if_false]
  exact Int.le_ediv_of_mul_le denominator_pos large

theorem floor_le_of_ofWhole? (rounded : ofWhole? number = some double)
    (below : number ≤ -((Nat.pow 2 exponent : Nat) : Int)) : double.floor ≤ -((Nat.pow 2 exponent : Nat) : Int) := by
  have beyond : Nat.pow 2 exponent ≤ number.natAbs := by omega
  obtain ⟨large, sign⟩ := large_of_ofWhole? rounded beyond
  have positive : 0 < Nat.pow 2 exponent := Nat.pow_pos (by decide)
  have negative : number < 0 := by omega
  simp only [floor, sign, negative, decide_true, if_true]
  refine Int.ediv_le_of_le_mul denominator_pos ?_
  rw [Int.neg_mul]
  exact Int.neg_le_neg large

end Whole

end WebToken.Double
