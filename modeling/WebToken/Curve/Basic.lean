import WebToken.Bytes
import WebToken.Number.Modular

/-!
The prime-order curves P-256, P-384 and P-521, all of the form y² = x³ - 3x + b, and multiplication
of their points. Keys give points by their two coordinates; sums are computed with a common
denominator, so that one inverse at the end is enough.
-/

namespace WebToken

inductive Curve
  | p256
  | p384
  | p521
  deriving DecidableEq, Repr

namespace Curve

def name : Curve → String
  | p256 => "P-256"
  | p384 => "P-384"
  | p521 => "P-521"

def all : List Curve := [p256, p384, p521]

def ofName? (text : String) : Option Curve := all.find? (·.name == text)

/-- The bytes of a coordinate, a scalar or half a signature. -/
def size : Curve → Nat
  | p256 => 32
  | p384 => 48
  | p521 => 66

def prime : Curve → Nat
  | p256 => Nat.pow 2 256 - Nat.pow 2 224 + Nat.pow 2 192 + Nat.pow 2 96 - 1
  | p384 => Nat.pow 2 384 - Nat.pow 2 128 - Nat.pow 2 96 + Nat.pow 2 32 - 1
  | p521 => Nat.pow 2 521 - 1

def order : Curve → Nat
  | p256 => 0xffffffff00000000ffffffffffffffffbce6faada7179e84f3b9cac2fc632551
  | p384 =>
      0xffffffffffffffffffffffffffffffffffffffffffffffffc7634d81f4372ddf581a0db248b0a77aecec196accc52973
  | p521 =>
      0x01fffffffffffffffffffffffffffffffffffffffffffffffffffffffffffffffffa51868783bf2f966b7fcc0148f709a5d03bb5c9b8899c47aebb6fb71e91386409

def constant : Curve → Nat
  | p256 => 0x5ac635d8aa3a93e7b3ebbd55769886bc651d06b0cc53b0f63bce3c3e27d2604b
  | p384 =>
      0xb3312fa7e23ee7e4988e056be3f82d19181d9c6efe8141120314088f5013875ac656398d8a2ed19d2a85c8edd3ec2aef
  | p521 =>
      0x0051953eb9618e1c9a1f929a21a0b68540eea2da725b99b315f3b8b489918ef109e156193951ec7e937b1652c0bd3bb1bf073573df883d2c34f1ef451fd46b503f00

/-- A point other than the neutral one. -/
structure Point where
  x : Nat
  y : Nat
  deriving DecidableEq, Repr

def generator : Curve → Point
  | p256 =>
      { x := 0x6b17d1f2e12c4247f8bce6e563a440f277037d812deb33a0f4a13945d898c296
        y := 0x4fe342e2fe1a7f9b8ee7eb4a7c0f9e162bce33576b315ececbb6406837bf51f5 }
  | p384 =>
      { x := 0xaa87ca22be8b05378eb1c71ef320ad746e1d3b628ba79b9859f741e082542a385502f25dbf55296c3a545e3872760ab7
        y := 0x3617de4a96262c6f5d9e98bf9292dc29f8f41dbd289a147ce9da3113b5f0b8c00a60b1ce1d7e819d7a431d7c90ea0e5f }
  | p521 =>
      { x := 0x00c6858e06b70404e9cd9e3ecb662395b4429c648139053fb521f828af606b4d3dbaa14b5e77efe75928fe1dc127a2ffa8de3348b3c1856a429bf97e7e31c2e5bd66
        y := 0x011839296a789a3bc0045c8a5fb42c7d1bd998f54449579b446817afbd17273e662c97ee72995ef42640c550b9013fad0761353c7086a272c24088be94769fd16650 }

/-- Whether two coordinates are reduced and satisfy the equation. -/
def contains (curve : Curve) (point : Point) : Bool :=
  let p := curve.prime
  point.x < p && point.y < p &&
    (point.y * point.y + 3 * point.x) % p ==
      (point.x * point.x * point.x + curve.constant) % p

/-- A point by numerators over the square and the cube of a common denominator, which is zero for
the neutral point. -/
structure Fraction where
  x : Nat
  y : Nat
  z : Nat

def Fraction.neutral : Fraction := ⟨1, 1, 0⟩

def Point.toFraction (point : Point) : Fraction := ⟨point.x, point.y, 1⟩

def double (curve : Curve) (point : Fraction) : Fraction :=
  let p := curve.prime
  let delta := point.z * point.z % p
  let gamma := point.y * point.y % p
  let beta := point.x * gamma % p
  let alpha := 3 * (Modular.sub point.x delta p * (point.x + delta)) % p
  let x := Modular.sub (alpha * alpha % p) (8 * beta % p) p
  let z := 2 * point.y * point.z % p
  let y := Modular.sub (alpha * Modular.sub (4 * beta % p) x p % p) (8 * gamma * gamma % p) p
  ⟨x, y, z⟩

def add (curve : Curve) (left right : Fraction) : Fraction :=
  if left.z = 0 then right
  else if right.z = 0 then left
  else
    let p := curve.prime
    let leftSquare := left.z * left.z % p
    let rightSquare := right.z * right.z % p
    let leftX := left.x * rightSquare % p
    let rightX := right.x * leftSquare % p
    let leftY := left.y * right.z * rightSquare % p
    let rightY := right.y * left.z * leftSquare % p
    let run := Modular.sub rightX leftX p
    let rise := Modular.sub rightY leftY p
    if run = 0 then
      if rise = 0 then curve.double left else .neutral
    else
      let runSquare := run * run % p
      let runCube := run * runSquare % p
      let base := leftX * runSquare % p
      let x := Modular.sub (Modular.sub (rise * rise % p) runCube p) (2 * base % p) p
      let y := Modular.sub (rise * Modular.sub base x p % p) (leftY * runCube % p) p
      ⟨x, y, left.z * right.z * run % p⟩

def multiply (curve : Curve) (scalar : Nat) (point : Fraction) : Fraction :=
  if scalar = 0 then .neutral
  else
    let half := curve.double (multiply curve (scalar / 2) point)
    if scalar % 2 = 1 then curve.add half point else half
termination_by scalar
decreasing_by omega

def Fraction.toPoint? (curve : Curve) (point : Fraction) : Option Point :=
  let p := curve.prime
  if point.z = 0 then none
  else
    let inverse := Modular.inversePrime point.z p
    let square := inverse * inverse % p
    some ⟨point.x * square % p, point.y * square * inverse % p⟩

/-- The public point of a secret scalar. A scalar between zero and the order never gives the neutral
point, so the generator stands in where there is none. -/
def publicPoint (curve : Curve) (secret : Nat) : Point :=
  ((curve.multiply secret curve.generator.toFraction).toPoint? curve).getD curve.generator

/-- The secret that a scalar and a point of the other side agree on: the x coordinate of their
product. -/
def agree (curve : Curve) (secret : Nat) (point : Point) : Bytes :=
  let product := (curve.multiply secret point.toFraction).toPoint? curve
  Bytes.ofNat curve.size ((product.map (·.x)).getD 0)

end Curve

end WebToken
