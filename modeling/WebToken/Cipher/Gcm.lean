import WebToken.Cipher.Aes

/-!
AES in Galois/counter mode: the text is added to a key stream made from a counter, and a tag is a
polynomial of the associated data and the ciphertext over the field of 2^128 elements.
-/

namespace WebToken.Gcm

open Aes (KeySize Schedule Block)

def ivSize : Nat := 12

def tagSize : Nat := 16

/-- A field element times the indeterminate. The coefficients stand highest bit first. -/
def timesX (element : Nat) : Nat :=
  if element % 2 = 1 then (element / 2) ^^^ (0xE1 * Nat.pow 2 120) else element / 2

/-- Adds `power` to `total` for each one among the `count` low bits of `factor`, from the highest
down, while `power` is multiplied by the indeterminate. -/
def multiplyBits (factor : Nat) : (count : Nat) → (power total : Nat) → Nat
  | 0, _, total => total
  | count + 1, power, total =>
      multiplyBits factor count (timesX power) (if factor.testBit count then total ^^^ power else total)

def multiply (left right : Nat) : Nat := multiplyBits left 128 right 0

def zeroPadded (bytes : Bytes) : Bytes :=
  bytes ++ List.replicate ((16 - bytes.length % 16) % 16) 0

def polynomial (point : Nat) : (count total : Nat) → Bytes → Nat
  | 0, total, _ => total
  | count + 1, total, bytes =>
      polynomial point count (multiply (total ^^^ Bytes.toNat (bytes.take 16)) point) (bytes.drop 16)

/-- The block that a counter value and an initialization vector encrypt to. -/
def counterBlock (keys : Schedule) (iv : Bytes) (counter : Nat) : Bytes :=
  (keys.encrypt (.ofBytes (iv ++ Bytes.ofNat 4 counter))).toBytes

/-- The key stream of the text, from counter value two on. -/
def keyStream (keys : Schedule) (iv : Bytes) (length : Nat) : Bytes :=
  (List.range ((length + 15) / 16)).flatMap fun index => counterBlock keys iv (index + 2)

def tag (keys : Schedule) (iv associated ciphertext : Bytes) : Bytes :=
  let zero : Block := .ofBytes []
  let point := Bytes.toNat (keys.encrypt zero).toBytes
  let text := zeroPadded associated ++ zeroPadded ciphertext ++
    Bytes.ofNat 8 (8 * associated.length) ++ Bytes.ofNat 8 (8 * ciphertext.length)
  Bytes.xor (Bytes.ofNat 16 (polynomial point (text.length / 16) 0 text)) (counterBlock keys iv 1)

def sealText (size : KeySize) (key iv associated plaintext : Bytes) : Bytes × Bytes :=
  let keys := Aes.schedule size key
  let ciphertext := Bytes.xor plaintext (keyStream keys iv plaintext.length)
  (ciphertext, tag keys iv associated ciphertext)

/-- The plaintext of a ciphertext, if the initialization vector and the tag have their lengths and
the tag is right. -/
def openText? (size : KeySize) (key iv associated ciphertext received : Bytes) : Option Bytes :=
  let keys := Aes.schedule size key
  if iv.length = ivSize && received.length = tagSize && tag keys iv associated ciphertext = received then
    some (Bytes.xor ciphertext (keyStream keys iv ciphertext.length))
  else none

end WebToken.Gcm
