import WebToken.Cipher.Aes
import WebToken.Hash.Hmac

/-!
AES in cipher block chaining mode with a keyed hash over the result. The first half of the key is
the key of the hash, the second half that of the cipher, and the tag is half as long as the key.
-/

namespace WebToken.CbcHmac

open Aes (KeySize Schedule Block)
open Sha2 (Kind)

def ivSize : Nat := 16

def hashOf : KeySize → Kind
  | .bits128 => .sha256
  | .bits192 => .sha384
  | .bits256 => .sha512

/-- The text filled up to whole blocks with bytes that tell their own number. There is at least
one. -/
def padded (text : Bytes) : Bytes :=
  let count := 16 - text.length % 16
  text ++ List.replicate count (UInt8.ofNat count)

/-- The text in front of its padding, if the padding is sound. -/
def unpad? (text : Bytes) : Option Bytes :=
  match text.getLast? with
  | none => none
  | some last =>
      let count := last.toNat
      let kept := text.length - count
      if 1 ≤ count && count ≤ 16 && count ≤ text.length && (text.drop kept).all (· == last) then
        some (text.take kept)
      else none

def blocksOf (count : Nat) (bytes : Bytes) : List Block := Bytes.pieces 16 Block.ofBytes count bytes

/-- Encrypts blocks, each added to the ciphertext block before it. -/
def encryptChain (keys : Schedule) (previous : Block) : List Block → List Block
  | [] => []
  | block :: rest =>
      let next := keys.encrypt (block.sum previous)
      next :: encryptChain keys next rest

def decryptChain (keys : Schedule) (previous : Block) : List Block → List Block
  | [] => []
  | block :: rest => (keys.decrypt block).sum previous :: decryptChain keys block rest

/-- What the tag authenticates: the associated data, the initialization vector, the ciphertext, and
the length of the associated data in bits. -/
def authenticated (associated iv ciphertext : Bytes) : Bytes :=
  associated ++ iv ++ ciphertext ++ Bytes.ofNat 8 (8 * associated.length)

/-- The tag of a ciphertext: the leading half of the keyed hash. -/
def tag (size : KeySize) (key associated iv ciphertext : Bytes) : Bytes :=
  ((hashOf size).hmac (key.take size.bytes) (authenticated associated iv ciphertext)).take size.bytes

def cipherKeys (size : KeySize) (key : Bytes) : Schedule := Aes.schedule size (key.drop size.bytes)

def sealText (size : KeySize) (key iv associated plaintext : Bytes) : Bytes × Bytes :=
  let text := padded plaintext
  let blocks := encryptChain (cipherKeys size key) (.ofBytes iv) (blocksOf (text.length / 16) text)
  let ciphertext := blocks.flatMap Block.toBytes
  (ciphertext, tag size key associated iv ciphertext)

/-- The plaintext of a ciphertext, if everything has its length, the tag is right and the padding is
sound. -/
def openText? (size : KeySize) (key iv associated ciphertext received : Bytes) : Option Bytes :=
  if iv.length ≠ ivSize || ciphertext.isEmpty || ciphertext.length % 16 ≠ 0 then none
  else if tag size key associated iv ciphertext ≠ received then none
  else
    let blocks := blocksOf (ciphertext.length / 16) ciphertext
    unpad? ((decryptChain (cipherKeys size key) (.ofBytes iv) blocks).flatMap Block.toBytes)

end WebToken.CbcHmac
