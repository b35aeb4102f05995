/-!
Arithmetic modulo a number: powers by repeated squaring and inverses by Euclid's algorithm.
-/

namespace WebToken.Modular

/-- `base ^ exponent % modulus`, by repeated squaring. -/
def power (base exponent modulus : Nat) : Nat :=
  if exponent = 0 then 1 % modulus
  else
    let rest := power (base * base % modulus) (exponent / 2) modulus
    if exponent % 2 = 1 then base * rest % modulus else rest
termination_by exponent
decreasing_by omega

theorem power_lt (base exponent : Nat) {modulus : Nat} (positive : 0 < modulus) :
    power base exponent modulus < modulus := by
  fun_induction power base exponent modulus with
  | case1 base => exact Nat.mod_lt 1 positive
  | case2 base exponent nonzero rest odd ih => exact Nat.mod_lt _ positive
  | case3 base exponent nonzero rest even ih => exact ih

/-- Euclid's algorithm on two remainders, each given with its coefficient of the first number:
the greatest common divisor and its coefficient. -/
def euclid (last next : Nat) (lastFactor nextFactor : Int) : Nat × Int :=
  if next = 0 then (last, lastFactor)
  else
    euclid next (last % next) nextFactor (lastFactor - Int.ofNat (last / next) * nextFactor)
termination_by next
decreasing_by exact Nat.mod_lt _ (by omega)

def inverse? (number modulus : Nat) : Option Nat :=
  let (divisor, factor) := euclid (number % modulus) modulus 1 0
  if divisor = 1 then some (factor % Int.ofNat modulus).toNat else none

def inversePrime (number prime : Nat) : Nat := power number (prime - 2) prime

def sub (left right modulus : Nat) : Nat := (left + (modulus - right)) % modulus

end WebToken.Modular
