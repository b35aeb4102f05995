import WebToken.Hash.Hmac
import WebToken.Rsa.Mask

/-!
RSA signatures: the fixed padding of PKCS #1 version 1.5 and the salted padding PSS, each over a
member of the SHA-2 family.
-/

namespace WebToken.Rsa

open Sha2 (Kind)

def digestInfo : Kind → Bytes
  | .sha256 => [0x30, 0x31, 0x30, 0x0D, 0x06, 0x09, 0x60, 0x86, 0x48, 0x01, 0x65, 0x03, 0x04, 0x02, 0x01,
      0x05, 0x00, 0x04, 0x20]
  | .sha384 => [0x30, 0x41, 0x30, 0x0D, 0x06, 0x09, 0x60, 0x86, 0x48, 0x01, 0x65, 0x03, 0x04, 0x02, 0x02,
      0x05, 0x00, 0x04, 0x30]
  | .sha512 => [0x30, 0x51, 0x30, 0x0D, 0x06, 0x09, 0x60, 0x86, 0x48, 0x01, 0x65, 0x03, 0x04, 0x02, 0x03,
      0x05, 0x00, 0x04, 0x40]

namespace Pkcs1

/-- The padded digest of a message in `size` bytes, none if it does not fit. -/
def encode? (hash : Kind) (size : Nat) (message : Bytes) : Option Bytes :=
  let text := digestInfo hash ++ hash.digest message
  if size < text.length + 11 then none
  else some (0x00 :: 0x01 :: List.replicate (size - text.length - 3) 0xFF ++ 0x00 :: text)

def sign (key : PrivateKey) (hash : Kind) (message : Bytes) : Except Failure Bytes :=
  let size := key.toPublic.size
  match encode? hash size message with
  | none => .error .messageTooLong
  | some encoded => (Bytes.ofNat size ·) <$> key.applyChecked (Bytes.toNat encoded)

def verify (key : PublicKey) (hash : Kind) (message signature : Bytes) : Bool :=
  let number := Bytes.toNat signature
  signature.length == key.size && number < key.n &&
    encode? hash key.size message == some (Bytes.ofNat key.size (key.apply number))

end Pkcs1

namespace Pss

/-- The hash that ties a salt to a message digest. -/
def saltedDigest (hash : Kind) (digest salt : Bytes) : Bytes :=
  hash.digest (List.replicate 8 0 ++ digest ++ salt)

/-- Clears the bits of the first byte above the `bits` low bits of the whole text. -/
def trimTop (bits : Nat) : Bytes → Bytes
  | [] => []
  | first :: rest => UInt8.ofNat (first.toNat % Nat.pow 2 (bits - 8 * rest.length)) :: rest

def encode? (hash : Kind) (bits : Nat) (salt message : Bytes) : Option Bytes :=
  let size := (bits + 7) / 8
  if size < hash.size + salt.length + 2 then none
  else
    let digest := saltedDigest hash (hash.digest message) salt
    let block := List.replicate (size - salt.length - hash.size - 2) 0 ++ 0x01 :: salt
    let masked := Bytes.xor block (mask hash.digest block.length digest)
    some (trimTop (bits - 8 * (hash.size + 1)) masked ++ digest ++ [0xBC])

/-- Whether a text of `bits` bits is a salted padding of the message, with a salt as long as the
digest. -/
def accepts (hash : Kind) (bits : Nat) (message encoded : Bytes) : Bool :=
  let size := (bits + 7) / 8
  let blockLength := size - hash.size - 1
  let masked := encoded.take blockLength
  let digest := (encoded.drop blockLength).take hash.size
  let block := trimTop (bits - 8 * (hash.size + 1)) (Bytes.xor masked (mask hash.digest blockLength digest))
  let zeros := blockLength - hash.size - 1
  let salt := block.drop (zeros + 1)
  2 * hash.size + 2 ≤ size && encoded.getLast? == some 0xBC &&
    trimTop (bits - 8 * (hash.size + 1)) masked == masked &&
    block.take (zeros + 1) == List.replicate zeros 0 ++ [0x01] &&
    saltedDigest hash (hash.digest message) salt == digest

def sign (key : PrivateKey) (hash : Kind) (salt message : Bytes) : Except Failure Bytes :=
  match encode? hash (bitCount key.n - 1) salt message with
  | none => .error .internal
  | some encoded => (Bytes.ofNat key.toPublic.size ·) <$> key.applyChecked (Bytes.toNat encoded)

def verify (key : PublicKey) (hash : Kind) (message signature : Bytes) : Bool :=
  let number := Bytes.toNat signature
  let bits := bitCount key.n - 1
  let opened := key.apply number
  signature.length == key.size && number < key.n && opened < Nat.pow 2 (8 * ((bits + 7) / 8)) &&
    accepts hash bits message (Bytes.ofNat ((bits + 7) / 8) opened)

end Pss

end WebToken.Rsa
