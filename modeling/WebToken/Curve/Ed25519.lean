import WebToken.Hash.Hmac
import WebToken.Number.Modular

/-!
Ed25519 signatures. Points of the twisted Edwards curve are written as one coordinate and a sign;
verification is strict: it refuses points of small order and a second number that is not reduced.
-/

namespace WebToken.Ed25519

def prime : Nat := Nat.pow 2 255 - 19

def order : Nat := Nat.pow 2 252 + 27742317777372353535851937790883648493

/-- The constant of the curve equation, -121665/121666. -/
def curveConstant : Nat :=
  37095705934669439343138083508754565189542113879843219016388785533085940283555

def rootOfMinusOne : Nat := Modular.power 2 ((prime - 1) / 4) prime

/-- A point with a common denominator `z`, and the product of the coordinates beside them. -/
structure Point where
  x : Nat
  y : Nat
  z : Nat
  product : Nat

def neutral : Point := ⟨0, 1, 1, 0⟩

/-- Adds two points. The formula has no exceptions, doubling included. -/
def add (left right : Point) : Point :=
  let a := Modular.sub left.y left.x prime * Modular.sub right.y right.x prime % prime
  let b := (left.y + left.x) * (right.y + right.x) % prime
  let c := 2 * curveConstant * left.product * right.product % prime
  let d := 2 * left.z * right.z % prime
  let e := Modular.sub b a prime
  let f := Modular.sub d c prime
  let g := (d + c) % prime
  let h := (b + a) % prime
  ⟨e * f % prime, g * h % prime, f * g % prime, e * h % prime⟩

def multiply (scalar : Nat) (point : Point) : Point :=
  if scalar = 0 then neutral
  else
    let half := multiply (scalar / 2) point
    let doubled := add half half
    if scalar % 2 = 1 then add doubled point else doubled
termination_by scalar
decreasing_by omega

def negate (point : Point) : Point :=
  ⟨Modular.sub 0 point.x prime, point.y, point.z, Modular.sub 0 point.product prime⟩

def same (left right : Point) : Bool :=
  left.x * right.z % prime == right.x * left.z % prime &&
    left.y * right.z % prime == right.y * left.z % prime

/-- Whether eight copies of a point add up to the neutral one. -/
def hasSmallOrder (point : Point) : Bool := same (multiply 8 point) neutral

/-- The number that the bytes spell, least significant byte first. -/
def littleEndian (bytes : Bytes) : Nat := Bytes.toNat bytes.reverse

def rootOfQuotient? (numerator denominator : Nat) : Option Nat :=
  let cube := denominator * denominator * denominator % prime
  let seventh := cube * cube * denominator % prime
  let root := numerator * cube * Modular.power (numerator * seventh % prime) ((prime - 5) / 8) prime % prime
  let check := denominator * root * root % prime
  if check = numerator % prime then some root
  else if check = Modular.sub 0 (numerator % prime) prime then some (root * rootOfMinusOne % prime)
  else none

/-- The point that 32 bytes stand for: the y coordinate, and in the top bit the sign of x. -/
def decompress? (bytes : Bytes) : Option Point :=
  if bytes.length ≠ 32 then none
  else
    let number := littleEndian bytes
    let y := number % Nat.pow 2 255 % prime
    let square := y * y % prime
    let found := rootOfQuotient? (Modular.sub square 1 prime) ((curveConstant * square + 1) % prime)
    found.map fun root =>
      let x := if root % 2 = number / Nat.pow 2 255 then root else Modular.sub 0 root prime
      ⟨x, y, 1, x * y % prime⟩

def compress (point : Point) : Bytes :=
  let inverse := Modular.inversePrime point.z prime
  let x := point.x * inverse % prime
  let y := point.y * inverse % prime
  (Bytes.ofNat 32 (x % 2 * Nat.pow 2 255 + y)).reverse

def base : Point :=
  let x := 15112221349535400772501151409588531511454012693041857206046113283949847762202
  let y := 46316835694926478169428394003475163141307993866256225615783033603165251855960
  ⟨x, y, 1, x * y % prime⟩

/-- What a seed expands to: the secret scalar and the bytes that nonces are made from. -/
structure Expanded where
  scalar : Nat
  nonceSeed : Bytes

def expand (seed : Bytes) : Expanded :=
  let digest := Sha2.Kind.sha512.digest seed
  let number := littleEndian (digest.take 32)
  ⟨number % Nat.pow 2 254 / 8 * 8 + Nat.pow 2 254, digest.drop 32⟩

def publicKey (seed : Bytes) : Bytes := compress (multiply (expand seed).scalar base)

def hashScalar (text : Bytes) : Nat := littleEndian (Sha2.Kind.sha512.digest text) % order

def sign (seed message : Bytes) : Bytes :=
  let expanded := expand seed
  let nonce := hashScalar (expanded.nonceSeed ++ message)
  let commitment := compress (multiply nonce base)
  let challenge := hashScalar (commitment ++ publicKey seed ++ message)
  let response := (nonce + challenge * expanded.scalar) % order
  commitment ++ (Bytes.ofNat 32 response).reverse

def verify (key message signature : Bytes) : Bool :=
  let commitment := signature.take 32
  let response := littleEndian (signature.drop 32)
  let challenge := hashScalar (commitment ++ key ++ message)
  match decompress? key, decompress? commitment with
  | some keyPoint, some commitmentPoint =>
      signature.length == 64 && response < order &&
        !hasSmallOrder commitmentPoint && !hasSmallOrder keyPoint &&
        same (add (multiply response base) (multiply challenge (negate keyPoint))) commitmentPoint
  | _, _ => false

end WebToken.Ed25519
