import WebToken.Curve.Basic
import WebToken.Hash.Hmac

/-!
ECDSA signatures, written as two numbers of fixed size. The nonce of a signature is either drawn at
random or derived from the key and the message by a chain of keyed hashes.
-/

namespace WebToken.Ecdsa

open Sha2 (Kind)

def hashOf : Curve → Kind
  | .p256 => .sha256
  | .p384 => .sha384
  | .p521 => .sha512

/-- The number that a message digest spells. No digest here is longer than the order. -/
def digestNumber (curve : Curve) (message : Bytes) : Nat :=
  Bytes.toNat ((hashOf curve).digest message) % curve.order

/-- The signature with a given nonce, none if one of its numbers is zero. -/
def signWith? (curve : Curve) (secret nonce : Nat) (message : Bytes) : Option Bytes := do
  let n := curve.order
  let point ← (curve.multiply nonce curve.generator.toFraction).toPoint? curve
  let r := point.x % n
  let s := Modular.inversePrime nonce n * (digestNumber curve message + r * secret) % n
  if r = 0 || s = 0 then none
  else some (Bytes.ofNat curve.size r ++ Bytes.ofNat curve.size s)

/-- A chain of keyed hashes: the key in use and the last value. -/
structure Chain where
  key : Bytes
  value : Bytes

def Chain.feed (hash : Kind) (chain : Chain) (text : Bytes) : Chain :=
  let key := hash.hmac chain.key (chain.value ++ text)
  ⟨key, hash.hmac key chain.value⟩

def Chain.start (hash : Kind) (seed : Bytes) : Chain :=
  let zero : Chain := ⟨List.replicate hash.size 0, List.replicate hash.size 1⟩
  (zero.feed hash (0x00 :: seed)).feed hash (0x01 :: seed)

/-- The first value of a chain that is a nonce, among `count` values. -/
def Chain.nonce? (hash : Kind) (order : Nat) : (count : Nat) → Chain → Option Nat
  | 0, _ => none
  | count + 1, chain =>
      let value := hash.hmac chain.key chain.value
      let number := Bytes.toNat value
      if 0 < number && number < order then some number
      else Chain.nonce? hash order count (Chain.feed hash ⟨chain.key, value⟩ [0x00])

/-- The nonce derived from a key and a message. Hardly any value of the chain is refused, so the
bound on their number is never met in practice. -/
def derivedNonce? (curve : Curve) (secret : Nat) (message : Bytes) : Option Nat :=
  let hash := hashOf curve
  let seed := Bytes.ofNat curve.size secret ++ Bytes.ofNat curve.size (digestNumber curve message)
  Chain.nonce? hash curve.order 256 (Chain.start hash seed)

/-- The nonce that a random number stands for: one of the scalars below the order, not zero. -/
def drawnNonce (curve : Curve) (drawn : Nat) : Nat := 1 + drawn % (curve.order - 1)

/-- Signs a message: with a derived nonce on P-256 and P-384, with a drawn one on P-521. -/
def sign? (curve : Curve) (secret drawn : Nat) (message : Bytes) : Option Bytes :=
  match curve with
  | .p521 => signWith? curve secret (drawnNonce curve drawn) message
  | _ => do
      let nonce ← derivedNonce? curve secret message
      signWith? curve secret nonce message

def verify (curve : Curve) (point : Curve.Point) (message signature : Bytes) : Bool :=
  let n := curve.order
  let r := Bytes.toNat (signature.take curve.size)
  let s := Bytes.toNat (signature.drop curve.size)
  let inverse := Modular.inversePrime s n
  let sum := curve.add
    (curve.multiply (digestNumber curve message * inverse % n) curve.generator.toFraction)
    (curve.multiply (r * inverse % n) point.toFraction)
  signature.length == 2 * curve.size && 0 < r && r < n && 0 < s && s < n &&
    (sum.toPoint? curve).any (·.x % n == r)

end WebToken.Ecdsa
