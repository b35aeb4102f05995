/-!
Finite binary floating point numbers of 64 bits, exactly. A number is kept by its sign and by the
place of its magnitude among all magnitudes, counted from zero; products, quotients and decimal
numerals are rounded to the nearest number, a tie to the even place.
-/

namespace WebToken

/-- A finite number. The magnitude with a given place has the place as its low 63 bits. -/
structure Double where
  negative : Bool
  place : Nat
  deriving DecidableEq, Repr

namespace Double

/-- The number of places in which the magnitude doubles. -/
def binade : Nat := Nat.pow 2 52

/-- The first place that stands for no finite number. -/
def limit : Nat := 2047 * binade

def bits (double : Double) : Nat := (if double.negative then Nat.pow 2 63 else 0) + double.place

/-- The whole number that a power of two scales to the magnitude. -/
def mantissa (double : Double) : Nat :=
  if double.place < binade then double.place else binade + double.place % binade

/-- The exponent of that power of two, plus 1074. -/
def shift (double : Double) : Nat := double.place / binade - 1

def numerator (double : Double) : Nat := double.mantissa * Nat.pow 2 double.shift

/-- The common denominator of all magnitudes. -/
def denominator : Nat := Nat.pow 2 1074

def floor (double : Double) : Int :=
  (if double.negative then -Int.ofNat double.numerator else Int.ofNat double.numerator) /
    Int.ofNat denominator

/-- A quotient rounded to a whole number, a tie to the even one. -/
def roundQuotient (numerator denominator : Nat) : Nat :=
  let quotient := numerator / denominator
  let twice := 2 * (numerator % denominator)
  if twice < denominator then quotient
  else if twice = denominator && quotient % 2 = 0 then quotient
  else quotient + 1

/-- The place of the magnitude nearest to a quotient. The mantissa is scaled to 53 bits, or to fewer
where the smallest exponent does not leave them. -/
def nearestPlace (numerator denominator : Nat) : Nat :=
  if numerator = 0 then 0
  else
    let wide := numerator * Double.denominator
    let excess := (wide / denominator).log2 - 52
    roundQuotient wide (denominator * Nat.pow 2 excess) + excess * binade

/-- The magnitude nearest to a quotient, if it is finite. -/
def ofQuotient? (numerator denominator : Nat) : Option Double :=
  let place := nearestPlace numerator denominator
  if place < limit then some ⟨false, place⟩ else none

/-- The double nearest to a whole number, if it is finite. -/
def ofWhole? (number : Int) : Option Double :=
  (ofQuotient? number.natAbs 1).map fun double => { double with negative := number < 0 }

def times? (left right : Double) : Option Double :=
  ofQuotient? (left.numerator * right.numerator) (denominator * denominator)

def over? (left right : Double) : Option Double := ofQuotient? left.numerator right.numerator

def zero : Double := ⟨false, 0⟩

def ofNat (number : Nat) : Double := (ofQuotient? number 1).getD zero

/-- The magnitude nearest to a power of ten with an exponent up to 308. -/
def powerOfTen (exponent : Nat) : Double := ofNat (Nat.pow 10 exponent)

/-- The largest exponent of a power of ten that is finite. -/
def maxPower : Nat := 308

/-- A magnitude times a power of ten, in steps that are each rounded: a division by the largest
power as long as the exponent is below all powers, then one product or one quotient. None if the
result is not finite. -/
def scale? (double : Double) (exponent : Int) : Option Double :=
  if exponent < -maxPower then
    if double.place = 0 then some double
    else
      match double.over? (powerOfTen maxPower) with
      | none => none
      | some next => scale? next (exponent + maxPower)
  else if exponent < 0 then double.over? (powerOfTen exponent.natAbs)
  else if exponent ≤ maxPower then double.times? (powerOfTen exponent.natAbs)
  else if double.place = 0 then some double
  else none
termination_by exponent.natAbs
decreasing_by simp only [maxPower] at *; omega

end Double

end WebToken
