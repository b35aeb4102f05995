import WebToken.Hash.Hmac

/-!
The concatenation key derivation of an agreement: digests of a counter, the agreed secret and a
description of the key, one after the other. The description gives every field with its length, so
no two descriptions are the same text.
-/

namespace WebToken.ConcatKdf

/-- What a key is derived for: the algorithm, what is known of the two parties, and the key length
in bytes. -/
structure Purpose where
  algorithm : Bytes
  sender : Bytes
  recipient : Bytes
  keyLength : Nat
  deriving DecidableEq, Repr

/-- A field behind its length in four bytes. -/
def field (text : Bytes) : Bytes := Bytes.ofNat 4 text.length ++ text

def Purpose.describe (purpose : Purpose) : Bytes :=
  field purpose.algorithm ++ field purpose.sender ++ field purpose.recipient ++
    Bytes.ofNat 4 (8 * purpose.keyLength)

/-- The digests with the counters `first`, `first + 1` and so on, `count` of them. -/
def digests (secret description : Bytes) : (count first : Nat) → Bytes
  | 0, _ => []
  | count + 1, first =>
      Sha2.Kind.sha256.digest (Bytes.ofNat 4 first ++ secret ++ description) ++
        digests secret description count (first + 1)

def derive (secret : Bytes) (purpose : Purpose) : Bytes :=
  (digests secret purpose.describe ((purpose.keyLength + 31) / 32) 1).take purpose.keyLength

end WebToken.ConcatKdf
