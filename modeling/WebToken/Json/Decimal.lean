import WebToken.Json.Double

/-!
The decimal text of a floating point number: the fewest digits that read back as the same number,
and of those the nearest to it.
-/

namespace WebToken.Decimal

/-- Decimal digits with the power of ten of the first one. -/
structure Digits where
  number : Nat
  exponent : Int
  deriving DecidableEq, Repr

def digitsOf (number : Nat) : List Char := Nat.toDigits 10 number

/-- The power of ten of the first digit of a quotient that is not zero. -/
def leadingExponent (numerator denominator : Nat) : Int :=
  if denominator ≤ numerator then Int.ofNat ((digitsOf (numerator / denominator)).length - 1)
  else -Int.ofNat (digitsOf ((denominator + numerator - 1) / numerator - 1)).length

/-- The bounds of the quotients that round to a magnitude, each over four times the common
denominator. Below the first magnitude of a binade the gap is half as wide. -/
def interval (double : Double) : Nat × Nat :=
  let step := Nat.pow 2 double.shift
  let below := if double.place % Double.binade = 0 && double.shift ≠ 0 then step else 2 * step
  (4 * double.numerator - below, 4 * double.numerator + 2 * step)

/-- Whether a quotient rounds to a magnitude. The bounds do if its place is even. -/
def readsBack (double : Double) (numerator denominator : Nat) : Bool :=
  let (low, high) := interval double
  let wide := 4 * Double.denominator * numerator
  if double.place % 2 = 0 then low * denominator ≤ wide && wide ≤ high * denominator
  else low * denominator < wide && wide < high * denominator

/-- The multiple of a power of ten that reads back as the magnitude, if one does; of two the nearer
one, and of two as near the even one. -/
def onGrid? (double : Double) (exponent : Int) : Option Nat :=
  let scaleUp := Nat.pow 10 (-exponent).toNat
  let scaleDown := Nat.pow 10 exponent.toNat
  let numerator := double.numerator * scaleUp
  let denominator := Double.denominator * scaleDown
  let below := numerator / denominator
  let belowFits := readsBack double (below * scaleDown) scaleUp
  let aboveFits := readsBack double ((below + 1) * scaleDown) scaleUp
  if belowFits && aboveFits then some (Double.roundQuotient numerator denominator)
  else if belowFits then some below
  else if aboveFits then some (below + 1)
  else none

/-- The shortest digits of a magnitude that is not zero. Seventeen always read back. -/
def shortest (double : Double) : Digits :=
  let exponent := leadingExponent double.numerator Double.denominator
  let found := (List.range 17).findSome? fun (count : Nat) =>
    (onGrid? double (exponent - Int.ofNat count)).map fun number => (number, exponent - Int.ofNat count)
  match found with
  | none => ⟨0, 0⟩
  | some (number, grid) => ⟨number, grid + ((digitsOf number).length - 1 : Nat)⟩

/-- The smallest and the largest exponent written without an exponent. -/
def plainRange : Int × Int := (-5, 15)

def trimmed (number : Nat) : List Char := ((digitsOf number).reverse.dropWhile (· == '0')).reverse

def layout (digits : Digits) : List Char :=
  let shown := trimmed digits.number
  if digits.exponent < plainRange.1 || plainRange.2 < digits.exponent then
    let sign := if digits.exponent < 0 then '-' else '+'
    let tail := match shown with
      | [] | [_] => shown
      | first :: rest => first :: '.' :: rest
    tail ++ 'e' :: sign :: digitsOf digits.exponent.natAbs
  else if digits.exponent < 0 then
    '0' :: '.' :: List.replicate (digits.exponent.natAbs - 1) '0' ++ shown
  else
    let whole := digits.exponent.toNat + 1
    let padded := shown ++ List.replicate (whole - shown.length) '0'
    match padded.drop whole with
    | [] => padded ++ ['.', '0']
    | fraction => padded.take whole ++ '.' :: fraction

def write (double : Double) : List Char :=
  let sign := if double.negative then ['-'] else []
  if double.place = 0 then sign ++ ['0', '.', '0'] else sign ++ layout (shortest double)

end WebToken.Decimal
