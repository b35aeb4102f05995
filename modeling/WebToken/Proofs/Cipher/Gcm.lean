import WebToken.Cipher.Gcm
import WebToken.Proofs.Cipher.Aes

/-!
Opening in Galois/counter mode gives back what was sealed: the key stream cancels, and the tag is
made a second time from the same ciphertext.
-/

namespace WebToken

theorem Bytes.xor_xor_cancel {text stream : Bytes} (enough : text.length ≤ stream.length) :
    Bytes.xor (Bytes.xor text stream) stream = text := by
  induction text generalizing stream with
  | nil => rfl
  | cons byte text ih =>
      cases stream with
      | nil => exact absurd enough (by simp)
      | cons other stream =>
          have rest := ih (Nat.le_of_succ_le_succ enough)
          simp only [Bytes.xor, List.zipWith_cons_cons, UInt8.xor_assoc, UInt8.xor_self, UInt8.xor_zero] at rest ⊢
          rw [rest]

namespace Gcm

open Aes

theorem length_counterBlock (keys : Schedule) (iv : Bytes) (counter : Nat) :
    (counterBlock keys iv counter).length = 16 := Block.length_toBytes _

theorem length_keyStream (keys : Schedule) (iv : Bytes) (length : Nat) :
    length ≤ (keyStream keys iv length).length := by
  have whole : (keyStream keys iv length).length = 16 * ((length + 15) / 16) := by
    rw [keyStream, Bytes.length_flatMap_write fun index => length_counterBlock keys iv (index + 2),
      List.length_range]
  omega

theorem length_tag (keys : Schedule) (iv associated ciphertext : Bytes) :
    (tag keys iv associated ciphertext).length = tagSize := by
  rw [tag, Bytes.length_xor, Bytes.length_ofNat, length_counterBlock]
  rfl

/-- Opening what was sealed with the same key, initialization vector and associated data. -/
theorem openText?_sealText (size : KeySize) (key associated plaintext : Bytes) {iv : Bytes}
    (sized : iv.length = ivSize) :
    openText? size key iv associated (sealText size key iv associated plaintext).1
      (sealText size key iv associated plaintext).2 = some plaintext := by
  have enough := length_keyStream (schedule size key) iv plaintext.length
  have length : (Bytes.xor plaintext (keyStream (schedule size key) iv plaintext.length)).length =
      plaintext.length := by
    rw [Bytes.length_xor, Nat.min_eq_left enough]
  simp only [openText?, sealText, sized, length_tag, length, Bytes.xor_xor_cancel enough]
  simp

theorem length_sealText (size : KeySize) (key iv associated plaintext : Bytes) :
    (sealText size key iv associated plaintext).1.length = plaintext.length := by
  rw [sealText, Bytes.length_xor, Nat.min_eq_left (length_keyStream _ _ _)]

end Gcm

end WebToken
