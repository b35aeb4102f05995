import WebToken.Hash.Sha2

/-!
Keyed hashing (HMAC) and password-based key derivation (PBKDF2) over the SHA-2 family.

A key is first turned into two states, one behind its inner and one behind its outer block. The
derivation repeats the keyed hash on its own digest, so it goes from state to state without writing
the digests out as bytes.
-/

namespace WebToken.Sha2

open Word

/-- The states behind the inner and the outer block of a key. -/
structure Keyed (w : Type) where
  inner : State w
  outer : State w

namespace Variant

variable {w : Type} [Word w]

/-- A key as one block: a long key is hashed first, a short one is filled up with zeros. -/
def keyBlock (variant : Variant w) (key : Bytes) : Bytes :=
  let short := if key.length > blockSize w then variant.digest key else key
  short ++ List.replicate (blockSize w - short.length) 0

def keyed (variant : Variant w) (key : Bytes) : Keyed w :=
  let block := variant.keyBlock key
  { inner := absorb roundConstants variant.initial (block.map (· ^^^ 0x36))
    outer := absorb roundConstants variant.initial (block.map (· ^^^ 0x5C)) }

/-- The keyed hash of a message, as the last state of the outer hash. -/
def authenticate (variant : Variant w) (keyed : Keyed w) (message : Bytes) : State w :=
  lastState keyed.outer (blockSize w)
    (variant.digestOf (lastState keyed.inner (blockSize w) message))

def hmac (variant : Variant w) (key message : Bytes) : Bytes :=
  variant.digestOf (variant.authenticate (variant.keyed key) message)

/-- Mixes in the digest of `last` as the only block after a key block, its padding included. -/
@[specialize]
def absorbDigest (constants : List w) (full : Bool) (bits : w) (start last : State w) : State w :=
  let zero := ofNat 0
  let one := ofNat (Nat.pow 2 (8 * size w - 1))
  rounds start constants last.a last.b last.c last.d last.e last.f
    (if full then last.g else one) (if full then last.h else zero) (if full then one else zero)
    zero zero zero zero zero zero bits
    start.a start.b start.c start.d start.e start.f start.g start.h

@[specialize]
def sum (left right : State w) : State w :=
  ⟨xor left.a right.a, xor left.b right.b, xor left.c right.c, xor left.d right.d,
    xor left.e right.e, xor left.f right.f, xor left.g right.g, xor left.h right.h⟩

/-- Adds up the keyed hashes that `count` further repetitions on their own digest give. -/
@[specialize]
def stretch (constants : List w) (full : Bool) (bits : w) (keyed : Keyed w) :
    (count : Nat) → (last total : State w) → State w
  | 0, _, total => total
  | count + 1, last, total =>
      let next := absorbDigest constants full bits keyed.outer
        (absorbDigest constants full bits keyed.inner last)
      stretch constants full bits keyed count next (sum total next)

@[specialize]
def stretchedBlock (variant : Variant w) (keyed : Keyed w) (salt : Bytes) (iterations index : Nat) :
    Bytes :=
  let first := variant.authenticate keyed (salt ++ Bytes.ofNat 4 index)
  let bits := ofNat (8 * (blockSize w + variant.digestSize))
  variant.digestOf
    (stretch roundConstants (variant.digestWords == 8) bits keyed (iterations - 1) first first)

@[specialize]
def pbkdf2 (variant : Variant w) (password salt : Bytes) (iterations length : Nat) : Bytes :=
  let keyed := variant.keyed password
  let count := (length + variant.digestSize - 1) / variant.digestSize
  ((List.range count).flatMap fun index =>
    stretchedBlock variant keyed salt iterations (index + 1)).take length

end Variant

inductive Kind
  | sha256
  | sha384
  | sha512
  deriving DecidableEq, Repr

namespace Kind

def size : Kind → Nat
  | sha256 => 32
  | sha384 => 48
  | sha512 => 64

def digest : Kind → Bytes → Bytes
  | sha256, message => Sha2.sha256.digest message
  | sha384, message => Sha2.sha384.digest message
  | sha512, message => Sha2.sha512.digest message

def hmac : Kind → (key message : Bytes) → Bytes
  | sha256, key, message => Sha2.sha256.hmac key message
  | sha384, key, message => Sha2.sha384.hmac key message
  | sha512, key, message => Sha2.sha512.hmac key message

def pbkdf2 : Kind → (password salt : Bytes) → (iterations length : Nat) → Bytes
  | sha256, password, salt, iterations, length => Sha2.sha256.pbkdf2 password salt iterations length
  | sha384, password, salt, iterations, length => Sha2.sha384.pbkdf2 password salt iterations length
  | sha512, password, salt, iterations, length => Sha2.sha512.pbkdf2 password salt iterations length

end Kind

end WebToken.Sha2
