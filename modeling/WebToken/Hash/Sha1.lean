import WebToken.Bytes

/-!
The SHA-1 hash, which the first form of RSA-OAEP masks its messages with.
-/

namespace WebToken.Sha1

structure State where
  (a b c d e : UInt32)

def initial : State := ⟨0x67452301, 0xEFCDAB89, 0x98BADCFE, 0x10325476, 0xC3D2E1F0⟩

private def rotate (x : UInt32) (count : UInt32) : UInt32 := (x <<< count) ||| (x >>> (32 - count))

/-- The words of a block followed by `count` words of the message schedule. `window` holds the last
sixteen words, newest first. -/
def schedule : (count : Nat) → (window : List UInt32) → List UInt32
  | 0, _ => []
  | count + 1, window =>
      let next := rotate (window.getD 2 0 ^^^ window.getD 7 0 ^^^ window.getD 13 0 ^^^ window.getD 15 0) 1
      next :: schedule count ((next :: window).take 16)

/-- The choice function and the constant of a round. -/
def roundOf (index : Nat) (b c d : UInt32) : UInt32 × UInt32 :=
  if index < 20 then ((b &&& c) ^^^ (~~~b &&& d), 0x5A827999)
  else if index < 40 then (b ^^^ c ^^^ d, 0x6ED9EBA1)
  else if index < 60 then ((b &&& c) ^^^ (b &&& d) ^^^ (c &&& d), 0x8F1BBCDC)
  else (b ^^^ c ^^^ d, 0xCA62C1D6)

def round (state : State) (step : UInt32 × Nat) : State :=
  let (chosen, constant) := roundOf step.2 state.b state.c state.d
  ⟨rotate state.a 5 + chosen + state.e + constant + step.1, state.a, rotate state.b 30, state.c, state.d⟩

def wordsOf : (count : Nat) → Bytes → List UInt32
  | 0, _ => []
  | count + 1, bytes => UInt32.ofNat (Bytes.toNat (bytes.take 4)) :: wordsOf count (bytes.drop 4)

def absorb (start : State) (block : Bytes) : State :=
  let words := wordsOf 16 block
  let last := ((words ++ schedule 64 words.reverse).zipIdx).foldl round start
  ⟨start.a + last.a, start.b + last.b, start.c + last.c, start.d + last.d, start.e + last.e⟩

def absorbAll : (count : Nat) → State → Bytes → State
  | 0, start, _ => start
  | count + 1, start, bytes => absorbAll count (absorb start (bytes.take 64)) (bytes.drop 64)

def padded (message : Bytes) : Bytes :=
  let zeros := (64 - (message.length + 9) % 64) % 64
  message ++ 0x80 :: List.replicate zeros 0 ++ Bytes.ofNat 8 (8 * message.length)

def digest (message : Bytes) : Bytes :=
  let text := padded message
  let last := absorbAll (text.length / 64) initial text
  [last.a, last.b, last.c, last.d, last.e].flatMap fun word => Bytes.ofNat 4 word.toNat

end WebToken.Sha1
