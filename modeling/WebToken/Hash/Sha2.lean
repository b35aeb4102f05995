import WebToken.Bytes

/-!
The SHA-2 hash family. One construction serves 32-bit words (SHA-256) and 64-bit words (SHA-384 and
SHA-512): the message is padded, cut into blocks of sixteen words, and every block is mixed into
eight working words. A state between two blocks is a value of its own, so keyed hashing can start
from the state behind the block of its key.
-/

namespace WebToken.Sha2

/-- A word size: the operations of the hash on one word, and its round constants. -/
class Word (w : Type) where
  size : Nat
  add : w → w → w
  xor : w → w → w
  and : w → w → w
  not : w → w
  /-- The rotations added to the first working word. -/
  mixHigh : w → w
  /-- The rotations added to the fifth working word. -/
  mixLow : w → w
  /-- The rotations of the word fifteen places back in the message schedule. -/
  spreadFar : w → w
  /-- The rotations of the word two places back in the message schedule. -/
  spreadNear : w → w
  ofNat : Nat → w
  toNat : w → Nat
  roundConstants : List w

/-- The fractional parts of the cube roots of the first eighty primes, in 64 bits. -/
def cubeRoots : List UInt64 :=
 [0x428a2f98d728ae22, 0x7137449123ef65cd, 0xb5c0fbcfec4d3b2f, 0xe9b5dba58189dbbc,
  0x3956c25bf348b538, 0x59f111f1b605d019, 0x923f82a4af194f9b, 0xab1c5ed5da6d8118,
  0xd807aa98a3030242, 0x12835b0145706fbe, 0x243185be4ee4b28c, 0x550c7dc3d5ffb4e2,
  0x72be5d74f27b896f, 0x80deb1fe3b1696b1, 0x9bdc06a725c71235, 0xc19bf174cf692694,
  0xe49b69c19ef14ad2, 0xefbe4786384f25e3, 0x0fc19dc68b8cd5b5, 0x240ca1cc77ac9c65,
  0x2de92c6f592b0275, 0x4a7484aa6ea6e483, 0x5cb0a9dcbd41fbd4, 0x76f988da831153b5,
  0x983e5152ee66dfab, 0xa831c66d2db43210, 0xb00327c898fb213f, 0xbf597fc7beef0ee4,
  0xc6e00bf33da88fc2, 0xd5a79147930aa725, 0x06ca6351e003826f, 0x142929670a0e6e70,
  0x27b70a8546d22ffc, 0x2e1b21385c26c926, 0x4d2c6dfc5ac42aed, 0x53380d139d95b3df,
  0x650a73548baf63de, 0x766a0abb3c77b2a8, 0x81c2c92e47edaee6, 0x92722c851482353b,
  0xa2bfe8a14cf10364, 0xa81a664bbc423001, 0xc24b8b70d0f89791, 0xc76c51a30654be30,
  0xd192e819d6ef5218, 0xd69906245565a910, 0xf40e35855771202a, 0x106aa07032bbd1b8,
  0x19a4c116b8d2d0c8, 0x1e376c085141ab53, 0x2748774cdf8eeb99, 0x34b0bcb5e19b48a8,
  0x391c0cb3c5c95a63, 0x4ed8aa4ae3418acb, 0x5b9cca4f7763e373, 0x682e6ff3d6b2b8a3,
  0x748f82ee5defb2fc, 0x78a5636f43172f60, 0x84c87814a1f0ab72, 0x8cc702081a6439ec,
  0x90befffa23631e28, 0xa4506cebde82bde9, 0xbef9a3f7b2c67915, 0xc67178f2e372532b,
  0xca273eceea26619c, 0xd186b8c721c0c207, 0xeada7dd6cde0eb1e, 0xf57d4f7fee6ed178,
  0x06f067aa72176fba, 0x0a637dc5a2c898a6, 0x113f9804bef90dae, 0x1b710b35131c471b,
  0x28db77f523047d84, 0x32caab7b40c72493, 0x3c9ebe0a15c9bebc, 0x431d67c49c100d4c,
  0x4cc5d4becb3e42b6, 0x597f299cfc657e2a, 0x5fcb6fab3ad6faec, 0x6c44198c4a475817]

/-- The fractional parts of the square roots of the first sixteen primes, in 64 bits. -/
def squareRoots : List UInt64 :=
 [0x6a09e667f3bcc908, 0xbb67ae8584caa73b, 0x3c6ef372fe94f82b, 0xa54ff53a5f1d36f1,
  0x510e527fade682d1, 0x9b05688c2b3e6c1f, 0x1f83d9abfb41bd6b, 0x5be0cd19137e2179,
  0xcbbb9d5dc1059ed8, 0x629a292a367cd507, 0x9159015a3070dd17, 0x152fecd8f70e5939,
  0x67332667ffc00b31, 0x8eb44a8768581511, 0xdb0c2e0d64f98fa7, 0x47b5481dbefa4fa4]

@[inline] private def rotate32 (x : UInt32) (count : UInt32) : UInt32 :=
  (x >>> count) ||| (x <<< (32 - count))

@[inline] private def rotate64 (x : UInt64) (count : UInt64) : UInt64 :=
  (x >>> count) ||| (x <<< (64 - count))

/-- The high halves of the 64-bit constants are the 32-bit ones. -/
def highHalf (x : UInt64) : UInt32 := (x >>> 32).toUInt32

@[always_inline]
instance : Word UInt32 where
  size := 4
  add := (· + ·)
  xor := (· ^^^ ·)
  and := (· &&& ·)
  not := (~~~ ·)
  mixHigh x := rotate32 x 2 ^^^ rotate32 x 13 ^^^ rotate32 x 22
  mixLow x := rotate32 x 6 ^^^ rotate32 x 11 ^^^ rotate32 x 25
  spreadFar x := rotate32 x 7 ^^^ rotate32 x 18 ^^^ (x >>> 3)
  spreadNear x := rotate32 x 17 ^^^ rotate32 x 19 ^^^ (x >>> 10)
  ofNat := UInt32.ofNat
  toNat := UInt32.toNat
  roundConstants := (cubeRoots.take 64).map highHalf

@[always_inline]
instance : Word UInt64 where
  size := 8
  add := (· + ·)
  xor := (· ^^^ ·)
  and := (· &&& ·)
  not := (~~~ ·)
  mixHigh x := rotate64 x 28 ^^^ rotate64 x 34 ^^^ rotate64 x 39
  mixLow x := rotate64 x 14 ^^^ rotate64 x 18 ^^^ rotate64 x 41
  spreadFar x := rotate64 x 1 ^^^ rotate64 x 8 ^^^ (x >>> 7)
  spreadNear x := rotate64 x 19 ^^^ rotate64 x 61 ^^^ (x >>> 6)
  ofNat := UInt64.ofNat
  toNat := UInt64.toNat
  roundConstants := cubeRoots

structure State (w : Type) where
  (a b c d e f g h : w)

open Word

/-- Mixes a block into `start`, one round for each constant. The sixteen words `w0` to `w15` are the
part of the message schedule still to come; each round uses up the first and appends the next one.
The words are separate arguments so that compiled code keeps them unboxed. -/
@[specialize]
def rounds {w : Type} [Word w] (start : State w) : List w →
    (w0 w1 w2 w3 w4 w5 w6 w7 w8 w9 w10 w11 w12 w13 w14 w15 : w) →
    (a b c d e f g h : w) → State w
  | [], _, _, _, _, _, _, _, _, _, _, _, _, _, _, _, _, a, b, c, d, e, f, g, h =>
      ⟨add start.a a, add start.b b, add start.c c, add start.d d,
        add start.e e, add start.f f, add start.g g, add start.h h⟩
  | k :: constants, w0, w1, w2, w3, w4, w5, w6, w7, w8, w9, w10, w11, w12, w13, w14, w15,
      a, b, c, d, e, f, g, h =>
      let choice := xor (and e f) (and (not e) g)
      let majority := xor (xor (and a b) (and a c)) (and b c)
      let low := add (add (add (add h (mixLow e)) choice) k) w0
      let high := add (mixHigh a) majority
      rounds start constants w1 w2 w3 w4 w5 w6 w7 w8 w9 w10 w11 w12 w13 w14 w15
        (add (add (add w0 (spreadFar w1)) w9) (spreadNear w14))
        (add low high) a b c (add d low) e f g

def wordsOf {w : Type} [Word w] : (count : Nat) → Bytes → List w
  | 0, _ => []
  | count + 1, bytes =>
      ofNat (Bytes.toNat (bytes.take (size w))) :: wordsOf count (bytes.drop (size w))

def blockSize (w : Type) [Word w] : Nat := 16 * size w

@[specialize]
def absorb {w : Type} [Word w] (constants : List w) (start : State w) (block : Bytes) : State w :=
  match wordsOf 16 block with
  | [w0, w1, w2, w3, w4, w5, w6, w7, w8, w9, w10, w11, w12, w13, w14, w15] =>
      rounds start constants w0 w1 w2 w3 w4 w5 w6 w7 w8 w9 w10 w11 w12 w13 w14 w15
        start.a start.b start.c start.d start.e start.f start.g start.h
  | _ => start

/-- The message with its padding: a one bit, zero bits, and the bit length in two words. `before`
is the number of bytes already absorbed, a whole number of blocks. -/
def padded (w : Type) [Word w] (before : Nat) (message : Bytes) : Bytes :=
  let used := message.length + 1 + 2 * size w
  let zeros := (blockSize w - used % blockSize w) % blockSize w
  message ++ 0x80 :: List.replicate zeros 0 ++ Bytes.ofNat (2 * size w) (8 * (before + message.length))

def absorbAll {w : Type} [Word w] (constants : List w) : (count : Nat) → State w → Bytes → State w
  | 0, start, _ => start
  | count + 1, start, bytes =>
      absorbAll constants count (absorb constants start (bytes.take (blockSize w)))
        (bytes.drop (blockSize w))

/-- A member of the family: its first state and the length of its digests in words. -/
structure Variant (w : Type) [Word w] where
  initial : State w
  digestWords : Nat

namespace Variant

variable {w : Type} [Word w]

def digestSize (variant : Variant w) : Nat := variant.digestWords * size w

def digestOf (variant : Variant w) (last : State w) : Bytes :=
  ([last.a, last.b, last.c, last.d, last.e, last.f, last.g, last.h].take variant.digestWords).flatMap
    fun word => Bytes.ofNat (size w) (toNat word)

/-- The state after the rest of a message, when `before` bytes led to `start`. -/
def lastState (start : State w) (before : Nat) (message : Bytes) : State w :=
  let text := padded w before message
  absorbAll roundConstants (text.length / blockSize w) start text

def digest (variant : Variant w) (message : Bytes) : Bytes :=
  variant.digestOf (lastState variant.initial 0 message)

end Variant

def stateOf {w : Type} (word : UInt64 → w) (roots : List UInt64) : State w :=
  let root (i : Nat) := word (roots.getD i 0)
  ⟨root 0, root 1, root 2, root 3, root 4, root 5, root 6, root 7⟩

def sha256 : Variant UInt32 := ⟨stateOf highHalf squareRoots, 8⟩

def sha384 : Variant UInt64 := ⟨stateOf id (squareRoots.drop 8), 6⟩

def sha512 : Variant UInt64 := ⟨stateOf id squareRoots, 8⟩

end WebToken.Sha2
