import WebToken.Hash.Hmac

/-!
Digests and keyed hashes of the SHA-2 family have the length that their kind tells.
-/

namespace WebToken.Sha2

variable {w : Type} [Word w]

theorem Variant.length_digestOf (variant : Variant w) (few : variant.digestWords ≤ 8) (last : State w) :
    (variant.digestOf last).length = variant.digestSize := by
  rw [digestOf, Bytes.length_flatMap_write (fun word => Bytes.length_ofNat (Word.size w) _), List.length_take,
    digestSize, Nat.mul_comm]
  congr 1
  exact Nat.min_eq_left few

theorem Kind.length_digest (hash : Kind) (message : Bytes) : (hash.digest message).length = hash.size := by
  cases hash with
  | sha256 => exact Sha2.sha256.length_digestOf (by decide) _
  | sha384 => exact Sha2.sha384.length_digestOf (by decide) _
  | sha512 => exact Sha2.sha512.length_digestOf (by decide) _

theorem Kind.length_hmac (hash : Kind) (key message : Bytes) : (hash.hmac key message).length = hash.size := by
  cases hash with
  | sha256 => exact Sha2.sha256.length_digestOf (by decide) _
  | sha384 => exact Sha2.sha384.length_digestOf (by decide) _
  | sha512 => exact Sha2.sha512.length_digestOf (by decide) _

end WebToken.Sha2
