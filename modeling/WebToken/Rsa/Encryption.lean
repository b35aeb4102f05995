import WebToken.Hash.Hmac
import WebToken.Hash.Sha1
import WebToken.Rsa.Mask

/-!
RSA encryption of short messages: the random padding of PKCS #1 version 1.5 and the masked padding
OAEP.
-/

namespace WebToken.Rsa

namespace Pkcs1

def overhead : Nat := 11

/-- The length of the random padding in front of a message. -/
def paddingLength (key : PublicKey) (message : Bytes) : Nat := key.size - message.length - 3

/-- Encrypts a message with a random padding of nonzero bytes, of the length `paddingLength`. -/
def encrypt (key : PublicKey) (padding message : Bytes) : Except Failure Bytes :=
  if message.length + overhead > key.size then .error .messageTooLong
  else
    let text := 0x00 :: 0x02 :: padding ++ 0x00 :: message
    .ok (Bytes.ofNat key.size (key.apply (Bytes.toNat text)))

/-- The message in a padded text: behind the bytes 0 and 2, at least eight nonzero bytes and a zero
byte. -/
def unpad? (text : Bytes) : Option Bytes :=
  match text with
  | 0x00 :: 0x02 :: rest =>
      let padding := rest.takeWhile (· != 0)
      match rest.dropWhile (· != 0) with
      | 0x00 :: message => if 8 ≤ padding.length then some message else none
      | _ => none
  | _ => none

def decrypt (key : PrivateKey) (ciphertext : Bytes) : Except Failure Bytes := do
  let size := key.toPublic.size
  let number ← key.applyChecked (Bytes.toNat ciphertext)
  match unpad? (Bytes.ofNat size number) with
  | some message => .ok message
  | none => .error .decryption

end Pkcs1

namespace Oaep

inductive Hash
  | sha1
  | sha256
  deriving DecidableEq, Repr

def Hash.size : Hash → Nat
  | sha1 => 20
  | sha256 => 32

def Hash.digest : Hash → Bytes → Bytes
  | sha1, message => Sha1.digest message
  | sha256, message => Sha2.Kind.sha256.digest message

def encrypt (key : PublicKey) (hash : Hash) (seed message : Bytes) : Except Failure Bytes :=
  if message.length + 2 * hash.size + 2 > key.size then .error .messageTooLong
  else
    let zeros := key.size - message.length - 2 * hash.size - 2
    let block := hash.digest [] ++ List.replicate zeros 0 ++ 0x01 :: message
    let maskedBlock := Bytes.xor block (mask hash.digest block.length seed)
    let maskedSeed := Bytes.xor seed (mask hash.digest hash.size maskedBlock)
    .ok (Bytes.ofNat key.size (key.apply (Bytes.toNat (0x00 :: maskedSeed ++ maskedBlock))))

/-- The message in an unmasked block: behind the digest of the empty label, zeros and a one. -/
def unpad? (hash : Hash) (block : Bytes) : Option Bytes :=
  if block.take hash.size = hash.digest [] then
    match (block.drop hash.size).dropWhile (· == 0) with
    | 0x01 :: message => some message
    | _ => none
  else none

def decrypt (key : PrivateKey) (hash : Hash) (ciphertext : Bytes) : Except Failure Bytes :=
  let size := key.toPublic.size
  if ciphertext.length ≠ size || size < 2 * hash.size + 2 then .error .decryption
  else do
    let number ← key.applyChecked (Bytes.toNat ciphertext)
    match Bytes.ofNat size number with
    | 0x00 :: rest =>
        let maskedSeed := rest.take hash.size
        let maskedBlock := rest.drop hash.size
        let seed := Bytes.xor maskedSeed (mask hash.digest hash.size maskedBlock)
        match unpad? hash (Bytes.xor maskedBlock (mask hash.digest maskedBlock.length seed)) with
        | some message => .ok message
        | none => .error .decryption
    | _ => .error .decryption

end Oaep

end WebToken.Rsa
