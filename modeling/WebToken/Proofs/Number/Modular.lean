import Mathlib.Data.Int.ModEq
import Mathlib.Data.Nat.ModEq
import Mathlib.NumberTheory.LucasPrimality
import WebToken.Number.Modular

/-!
Arithmetic modulo a number computes what its names say: powers by squaring are powers, and what
Euclid's algorithm gives for an inverse is one. Powers also tell that a number is prime, if its
predecessor is made of small factors.
-/

namespace WebToken.Modular

theorem power_eq (base exponent modulus : Nat) :
    power base exponent modulus = Nat.pow base exponent % modulus := by
  fun_induction power base exponent modulus with
  | case1 base => rfl
  | case2 base exponent nonzero rest odd ih =>
      have halves : exponent = 2 * (exponent / 2) + 1 := by omega
      have squared : rest = (base * base) ^ (exponent / 2) % modulus := ih.trans (Nat.pow_mod ..).symm
      rw [squared, Nat.pow_eq]
      conv => rhs; rw [halves, Nat.pow_succ', Nat.pow_mul, Nat.pow_two]
      exact Nat.mul_mod_mod base _ modulus
  | case3 base exponent nonzero rest even ih =>
      have halves : exponent = 2 * (exponent / 2) := by omega
      have squared : rest = (base * base) ^ (exponent / 2) % modulus := ih.trans (Nat.pow_mod ..).symm
      rw [squared, Nat.pow_eq]
      conv => rhs; rw [halves, Nat.pow_mul, Nat.pow_two]

theorem sub_add_modEq (left : Nat) {right modulus : Nat} (reduced : right ≤ modulus) :
    sub left right modulus + right ≡ left [MOD modulus] := by
  have whole : left + (modulus - right) + right = left + modulus := by omega
  calc sub left right modulus + right
    _ ≡ left + (modulus - right) + right [MOD modulus] := (Nat.mod_modEq _ modulus).add_right right
    _ ≡ left [MOD modulus] := by rw [whole]; exact Nat.add_modEq_right

/-- Each remainder of Euclid's algorithm stays the multiple of the number that its factor tells. -/
theorem euclid_modEq {number modulus : Int} (last next : Nat) (lastFactor nextFactor : Int)
    (lastMultiple : (last : Int) ≡ lastFactor * number [ZMOD modulus])
    (nextMultiple : (next : Int) ≡ nextFactor * number [ZMOD modulus]) :
    ((euclid last next lastFactor nextFactor).1 : Int) ≡
      (euclid last next lastFactor nextFactor).2 * number [ZMOD modulus] := by
  fun_induction euclid last next lastFactor nextFactor with
  | case1 last lastFactor nextFactor => exact lastMultiple
  | case2 last next lastFactor nextFactor nonzero ih =>
      apply ih nextMultiple
      have remainder : ((last % next : Nat) : Int) = last - Int.ofNat (last / next) * next := by
        have whole := Nat.mod_add_div last next
        have cast : ((last % next : Nat) : Int) + next * (last / next : Nat) = last := by exact_mod_cast whole
        rw [← cast, Int.ofNat_eq_natCast, mul_comm]
        exact (add_sub_cancel_right _ _).symm
      rw [remainder, sub_mul, mul_assoc]
      exact lastMultiple.sub (nextMultiple.mul_left _)

theorem inverse?_modEq {number modulus inverse : Nat} (positive : 0 < modulus)
    (found : inverse? number modulus = some inverse) : number * inverse ≡ 1 [MOD modulus] := by
  have multiple : ((euclid (number % modulus) modulus 1 0).1 : Int) ≡
      (euclid (number % modulus) modulus 1 0).2 * number [ZMOD modulus] := by
    apply euclid_modEq
    · rw [one_mul, Int.natCast_mod]
      exact Int.mod_modEq _ _
    · rw [zero_mul]
      exact Int.modEq_zero_iff_dvd.mpr dvd_rfl
  unfold inverse? at found
  generalize euclid (number % modulus) modulus 1 0 = ended at found multiple
  obtain ⟨divisor, factor⟩ := ended
  dsimp only at found multiple
  split at found
  case isFalse => cases found
  case isTrue one =>
      obtain rfl := Option.some.inj found
      have nonnegative : 0 ≤ factor % (modulus : Int) := Int.emod_nonneg _ (by omega)
      rw [one] at multiple
      refine (Int.natCast_modEq_iff).mp ?_
      rw [Int.natCast_mul, Int.ofNat_eq_natCast, Int.toNat_of_nonneg nonnegative, mul_comm]
      exact ((Int.mod_modEq factor modulus).mul_right number).trans multiple.symm

theorem pow_eq_one_iff {base exponent modulus : Nat} (large : 1 < modulus) :
    (base : ZMod modulus) ^ exponent = 1 ↔ power base exponent modulus = 1 := by
  rw [power_eq, Nat.pow_eq, ← Nat.cast_pow, ← Nat.cast_one, ZMod.natCast_eq_natCast_iff', Nat.mod_eq_of_lt large]

/-- A number one above a product of twos and threes is prime, if a power to that product is one and neither its
half nor its third is enough for that. -/
theorem prime_of_power (base : Nat) {twos threes product : Nat} (made : product = Nat.pow 2 twos * Nat.pow 3 threes)
    (whole : power base product (product + 1) = 1) (half : power base (product / 2) (product + 1) ≠ 1)
    (third : power base (product / 3) (product + 1) ≠ 1) : (product + 1).Prime := by
  have positive : 0 < product := made ▸ Nat.mul_pos (Nat.pow_pos (by decide)) (Nat.pow_pos (by decide))
  have large : 1 < product + 1 := Nat.succ_lt_succ positive
  refine lucas_primality (product + 1) (base : ZMod (product + 1)) ((pow_eq_one_iff large).mpr whole) ?_
  intro factor isPrime divides
  rw [ne_eq, pow_eq_one_iff large]
  rw [Nat.add_sub_cancel, made] at divides
  rcases isPrime.dvd_mul.mp divides with two | three
  · obtain rfl := (Nat.prime_dvd_prime_iff_eq isPrime Nat.prime_two).mp (isPrime.dvd_of_dvd_pow two)
    exact half
  · obtain rfl := (Nat.prime_dvd_prime_iff_eq isPrime Nat.prime_three).mp (isPrime.dvd_of_dvd_pow three)
    exact third

end WebToken.Modular
