import Mathlib.FieldTheory.Finite.Basic
import WebToken.Checked
import WebToken.Proofs.Number.Modular
import WebToken.Proofs.Rsa.Encryption

/-!
The private operation of an RSA key undoes the public one when both factors of the modulus are
prime. The checks of a key establish the rest: the exponents undo each other modulo one less than
each factor, and the two residues meet in one number below the modulus.
-/

namespace WebToken.Rsa

/-- An exponent that is one more than a multiple of one less than a prime changes nothing. -/
theorem pow_modEq {prime exponent : Nat} (isPrime : prime.Prime) (unit : exponent % (prime - 1) = 1)
    (number : Nat) : number ^ exponent ≡ number [MOD prime] := by
  have whole : exponent = (prime - 1) * (exponent / (prime - 1)) + 1 := by
    have parts := Nat.div_add_mod exponent (prime - 1)
    omega
  rw [whole, pow_succ, pow_mul]
  by_cases divides : prime ∣ number
  · have zero : number ≡ 0 [MOD prime] := Nat.modEq_zero_iff_dvd.mpr divides
    exact (zero.mul_left _).trans zero.symm
  · have coprime : number.Coprime prime := ((Nat.Prime.coprime_iff_not_dvd isPrime).mpr divides).symm
    have fermat : number ^ (prime - 1) ≡ 1 [MOD prime] := Nat.ModEq.pow_card_sub_one_eq_one isPrime coprime
    calc (number ^ (prime - 1)) ^ (exponent / (prime - 1)) * number
      _ ≡ 1 ^ (exponent / (prime - 1)) * number [MOD prime] := (fermat.pow _).mul_right number
      _ = number := by rw [one_pow, one_mul]

namespace PrivateKey

variable {key : PrivateKey} {number : Nat}

/-- The numbers of a key fit together. -/
structure Consistent (key : PrivateKey) : Prop where
  odd : key.n % 2 = 1
  factors : key.p * key.q = key.n
  first : key.d * key.e % (key.p - 1) = 1 % (key.p - 1)
  second : key.d * key.e % (key.q - 1) = 1 % (key.q - 1)

theorem ofNumbers_consistent {n e d p q : Nat} (given : ofNumbers n e d p q = .ok key) : key.Consistent := by
  obtain ⟨_, publicSound, rest⟩ := bind_eq_ok.mp given
  obtain ⟨_, privateSound, found⟩ := bind_eq_ok.mp rest
  obtain rfl := Except.ok.inj found
  have odd : n % 2 = 1 := by
    unfold checkPublic at publicSound
    split at publicSound
    · cases publicSound
    · split at publicSound
      · cases publicSound
      · rename_i sound
        simp only [Bool.or_eq_true, decide_eq_true_eq, not_or] at sound
        omega
  unfold checkPrivate at privateSound
  split at privateSound
  · cases privateSound
  · split at privateSound
    · cases privateSound
    · rename_i factors
      split at privateSound
      · rename_i inverse
        rw [Bool.and_eq_true, decide_eq_true_eq, decide_eq_true_eq] at inverse
        exact ⟨odd, Decidable.not_not.mp factors, inverse.1, inverse.2⟩
      · cases privateSound

theorem factor_large (consistent : key.Consistent) {prime : Nat} (isPrime : prime.Prime)
    (divides : prime ∣ key.n) : 2 < prime := by
  refine lt_of_le_of_ne isPrime.two_le fun two => ?_
  have odd := consistent.odd
  rw [← two] at divides
  omega

/-- The secret exponent, reduced for a prime factor or not, undoes the public operation modulo it. -/
theorem power_apply_modEq {prime exponent modulus : Nat} (isPrime : prime.Prime) (large : 2 < prime)
    (divides : prime ∣ key.n) (below : prime ∣ modulus)
    (inverse : exponent * key.e % (prime - 1) = 1 % (prime - 1)) :
    Modular.power (key.toPublic.apply number) exponent modulus ≡ number [MOD prime] := by
  have unit : (key.e * exponent) % (prime - 1) = 1 := by
    rw [mul_comm, inverse]
    exact Nat.mod_eq_of_lt (by omega)
  have encrypted : key.toPublic.apply number ≡ number ^ key.e [MOD prime] := by
    rw [PublicKey.apply, Modular.power_eq]
    exact (Nat.mod_modEq _ _).of_dvd divides
  rw [Modular.power_eq]
  calc key.toPublic.apply number ^ exponent % modulus
    _ ≡ key.toPublic.apply number ^ exponent [MOD prime] := (Nat.mod_modEq _ modulus).of_dvd below
    _ ≡ (number ^ key.e) ^ exponent [MOD prime] := encrypted.pow exponent
    _ = number ^ (key.e * exponent) := (pow_mul number key.e exponent).symm
    _ ≡ number [MOD prime] := pow_modEq isPrime unit number

/-- The two residues of a private operation, put together below the modulus. -/
theorem combined_modEq {p q first second inverse : Nat} (positive : 0 < p)
    (inverts : q * inverse ≡ 1 [MOD p]) :
    second + Modular.sub first (second % p) p * inverse % p * q ≡ first [MOD p] ∧
      second + Modular.sub first (second % p) p * inverse % p * q ≡ second [MOD q] := by
  constructor
  · have difference := Modular.sub_add_modEq first (Nat.mod_lt second positive).le
    calc second + Modular.sub first (second % p) p * inverse % p * q
      _ ≡ second + Modular.sub first (second % p) p * inverse * q [MOD p] :=
          ((Nat.mod_modEq _ p).mul_right q).add_left second
      _ = second + Modular.sub first (second % p) p * (q * inverse) := by rw [mul_assoc, mul_comm inverse q]
      _ ≡ second + Modular.sub first (second % p) p * 1 [MOD p] := (inverts.mul_left _).add_left second
      _ = Modular.sub first (second % p) p + second := by rw [mul_one, add_comm]
      _ ≡ Modular.sub first (second % p) p + second % p [MOD p] := (Nat.mod_modEq second p).symm.add_left _
      _ ≡ first [MOD p] := difference
  · calc second + Modular.sub first (second % p) p * inverse % p * q
      _ ≡ second + 0 [MOD q] := (Nat.modEq_zero_iff_dvd.mpr (dvd_mul_left q _)).add_left second
      _ = second := add_zero second

theorem combined_lt {p q second reduced : Nat} (below : second < q) (fits : reduced < p) :
    second + reduced * q < p * q := by
  calc second + reduced * q
    _ < q + reduced * q := Nat.add_lt_add_right below _
    _ = (reduced + 1) * q := by rw [add_mul, one_mul, add_comm]
    _ ≤ p * q := Nat.mul_le_mul_right q fits

theorem apply_lt (consistent : key.Consistent) (positive : 0 < key.n) (number : Nat) : key.apply number < key.n := by
  have product : 0 < key.p * key.q := consistent.factors ▸ positive
  unfold apply
  split
  · exact Modular.power_lt _ _ positive
  · rw [← consistent.factors]
    exact combined_lt (Modular.power_lt _ _ (Nat.pos_of_mul_pos_left product))
      (Nat.mod_lt _ (Nat.pos_of_mul_pos_right product))

theorem apply_apply_modEq (consistent : key.Consistent) (firstPrime : key.p.Prime) (secondPrime : key.q.Prime)
    (number : Nat) :
    key.apply (key.toPublic.apply number) ≡ number [MOD key.p] ∧
      key.apply (key.toPublic.apply number) ≡ number [MOD key.q] := by
  have firstDivides : key.p ∣ key.n := ⟨key.q, consistent.factors.symm⟩
  have secondDivides : key.q ∣ key.n := ⟨key.p, by rw [← consistent.factors, mul_comm]⟩
  have firstLarge := factor_large consistent firstPrime firstDivides
  have secondLarge := factor_large consistent secondPrime secondDivides
  unfold apply
  split
  · exact ⟨power_apply_modEq firstPrime firstLarge firstDivides firstDivides consistent.first,
      power_apply_modEq secondPrime secondLarge secondDivides secondDivides consistent.second⟩
  · rename_i residues found
    obtain ⟨inverse, inverts, rfl⟩ := Option.map_eq_some_iff.mp found
    obtain ⟨atFirst, atSecond⟩ := combined_modEq firstPrime.pos (Modular.inverse?_modEq firstPrime.pos inverts)
    refine ⟨atFirst.trans ?_, atSecond.trans ?_⟩
    · apply power_apply_modEq firstPrime firstLarge firstDivides dvd_rfl
      rw [Nat.mod_mul_mod, consistent.first]
    · apply power_apply_modEq secondPrime secondLarge secondDivides dvd_rfl
      rw [Nat.mod_mul_mod, consistent.second]

/-- The private operation of a key undoes the public one when its factors are two primes. -/
theorem inverts_of_primes {n e d p q : Nat} (given : ofNumbers n e d p q = .ok key) (firstPrime : key.p.Prime)
    (secondPrime : key.q.Prime) (distinct : key.p ≠ key.q) : key.Inverts := by
  have consistent := ofNumbers_consistent given
  intro number below
  have positive : 0 < key.n := Nat.zero_lt_of_lt below
  obtain ⟨atFirst, atSecond⟩ := apply_apply_modEq consistent firstPrime secondPrime number
  have coprime := (Nat.coprime_primes firstPrime secondPrime).mpr distinct
  have recovered : key.apply (key.toPublic.apply number) ≡ number [MOD key.n] :=
    consistent.factors ▸ (Nat.modEq_and_modEq_iff_modEq_mul coprime).mp ⟨atFirst, atSecond⟩
  have same := recovered.eq_of_lt_of_lt (apply_lt consistent positive _) below
  have encrypted : key.toPublic.apply number < key.n := Modular.power_lt _ _ positive
  rw [applyChecked, if_neg (Nat.not_le.mpr encrypted)]
  simp only [same, if_true]

/-- Where the private operation undoes the public one, no two numbers are encrypted alike, so every number below the
modulus is the encryption of one. -/
theorem exists_applyChecked (inverts : key.Inverts) (below : number < key.n) :
    ∃ result, key.applyChecked number = .ok result := by
  have positive : 0 < key.n := Nat.zero_lt_of_lt below
  let encrypt : Fin key.n → Fin key.n := fun plain => ⟨key.toPublic.apply plain, Modular.power_lt _ _ positive⟩
  have injective : Function.Injective encrypt := by
    intro one other same
    have alike : key.toPublic.apply one = key.toPublic.apply other := congrArg Fin.val same
    have decrypted := inverts one one.isLt
    rw [alike, inverts other other.isLt] at decrypted
    exact Fin.ext (Except.ok.inj decrypted).symm
  obtain ⟨plain, reached⟩ := Finite.surjective_of_injective injective ⟨number, below⟩
  have encrypted : key.toPublic.apply plain = number := congrArg Fin.val reached
  exact ⟨plain, encrypted ▸ inverts plain plain.isLt⟩

/-- A key of 1024 bits, each factor of which is one above a product of twos and threes. -/
def smoothKey : PrivateKey where
  n := (Nat.pow 2 196 * Nat.pow 3 204 + 1) * (Nat.pow 2 190 * Nat.pow 3 198 + 1)
  e := 65537
  d := (25640 * (Nat.pow 2 196 * Nat.pow 3 204) + 1) / 65537
  p := Nat.pow 2 196 * Nat.pow 3 204 + 1
  q := Nat.pow 2 190 * Nat.pow 3 198 + 1

theorem ofNumbers_smoothKey :
    ofNumbers smoothKey.n smoothKey.e smoothKey.d smoothKey.p smoothKey.q = .ok smoothKey := by
  decide +kernel

theorem size_smoothKey : smoothKey.toPublic.size = 128 := by
  decide +kernel

theorem inverts_smoothKey : smoothKey.Inverts := by
  have firstPrime : smoothKey.p.Prime :=
    Modular.prime_of_power 5 rfl (by decide +kernel) (by decide +kernel) (by decide +kernel)
  have secondPrime : smoothKey.q.Prime :=
    Modular.prime_of_power 7 rfl (by decide +kernel) (by decide +kernel) (by decide +kernel)
  exact inverts_of_primes ofNumbers_smoothKey firstPrime secondPrime (by decide +kernel)

end PrivateKey

end WebToken.Rsa
