import WebToken.KeyManagement
import WebToken.Proofs.Algorithm
import WebToken.Proofs.Hash.ConcatKdf
import WebToken.Proofs.Text.Utf8

/-!
Keys that are derived from an agreed secret. Each is derived for one purpose: for a key of one algorithm and one
length, and for the two parties that are known.
-/

namespace WebToken.KeyManagement

open Aes (KeySize)
open ConcatKdf (Purpose)

/-- What the key of an agreement is derived for. The content encryption matters only if the key is that of the
content. -/
def purposeOf (wrap : Option KeySize) (encryption : ContentEncryption) (sender recipient : Bytes) : Purpose :=
  match wrap with
  | some size => ⟨Bytes.ofText (KeyAlgorithm.agreement wrap).name, sender, recipient, size.bytes⟩
  | none => ⟨Bytes.ofText encryption.name, sender, recipient, encryption.keyLength⟩

variable {wrap otherWrap : Option KeySize} {encryption otherEncryption : ContentEncryption}
  {sender recipient otherSender otherRecipient : Bytes}

theorem agreedKey_eq_derive (wrap : Option KeySize) (encryption : ContentEncryption) (secret sender recipient : Bytes) :
    agreedKey wrap encryption secret sender recipient =
      ConcatKdf.derive secret (purposeOf wrap encryption sender recipient) := by
  cases wrap <;> rfl

theorem encryption_name_ne (size : KeySize) (encryption : ContentEncryption) :
    (KeyAlgorithm.agreement (some size)).name ≠ encryption.name := by
  intro same
  have found := ContentEncryption.ofName?_name encryption
  rw [← same] at found
  cases size <;> contradiction

theorem purposeOf_eq_iff :
    purposeOf wrap encryption sender recipient = purposeOf otherWrap otherEncryption otherSender otherRecipient ↔
      wrap = otherWrap ∧ (wrap = none → encryption = otherEncryption) ∧ sender = otherSender ∧
        recipient = otherRecipient := by
  constructor
  · intro same
    cases wrap with
    | some size =>
        cases otherWrap with
        | some otherSize =>
            obtain ⟨names, rfl, rfl, _⟩ := Purpose.mk.inj same
            obtain ⟨rfl⟩ := KeyAlgorithm.name_injective (Utf8.ofText_injective names)
            exact ⟨rfl, nofun, rfl, rfl⟩
        | none => exact absurd (Utf8.ofText_injective (Purpose.mk.inj same).1) (encryption_name_ne size _)
    | none =>
        cases otherWrap with
        | some otherSize =>
            exact absurd (Utf8.ofText_injective (Purpose.mk.inj same).1).symm (encryption_name_ne otherSize _)
        | none =>
            obtain ⟨names, rfl, rfl, _⟩ := Purpose.mk.inj same
            exact ⟨rfl, fun _ => ContentEncryption.name_injective (Utf8.ofText_injective names), rfl, rfl⟩
  · rintro ⟨rfl, own, rfl, rfl⟩
    cases wrap with
    | some size => rfl
    | none => rw [own rfl]

/-- A derived key is as long as asked for and the beginning of the digests with the counters 1, 2 and so on, which
one round after the other gives without a counter that has no room. One secret with any two counters and descriptions
is digested as the same text only if the counters and all that is described are the same. An agreement derives its
key so, and two agreements are described alike exactly if they wrap the content key in the same way or, where it is
not wrapped, are for the same encryption, and know the same of the parties. -/
theorem derives_for_one_purpose :
    (∀ (secret : Bytes) (purpose : Purpose), purpose.Bounded →
      (ConcatKdf.derive secret purpose).length = purpose.keyLength ∧
      ConcatKdf.derive secret purpose = (ConcatKdf.stream secret purpose.describe).take purpose.keyLength ∧
      ∃ digests, ConcatKdf.fill? secret purpose.describe purpose.keyLength 1 [] = some digests ∧
        ConcatKdf.derive secret purpose = digests.take purpose.keyLength) ∧
    (∀ (purpose other : Purpose), purpose.Bounded → other.Bounded → purpose.describe = other.describe →
      purpose = other) ∧
    (∀ (secret : Bytes) (purpose other : Purpose) (counter later : Nat), purpose.Bounded → other.Bounded →
      counter < Nat.pow 2 32 → later < Nat.pow 2 32 →
        ConcatKdf.input secret purpose.describe counter = ConcatKdf.input secret other.describe later →
          counter = later ∧ purpose = other) ∧
    (∀ (wrap : Option KeySize) (encryption : ContentEncryption) (secret sender recipient : Bytes),
      agreedKey wrap encryption secret sender recipient =
        ConcatKdf.derive secret (purposeOf wrap encryption sender recipient)) ∧
    ∀ (wrap otherWrap : Option KeySize) (encryption otherEncryption : ContentEncryption)
      (sender recipient otherSender otherRecipient : Bytes),
      purposeOf wrap encryption sender recipient = purposeOf otherWrap otherEncryption otherSender otherRecipient ↔
        wrap = otherWrap ∧ (wrap = none → encryption = otherEncryption) ∧ sender = otherSender ∧
          recipient = otherRecipient := by
  refine ⟨?derived, ?described, ?hashed, agreedKey_eq_derive, ?purposes⟩
  case derived =>
      intro secret purpose bounded
      refine ⟨ConcatKdf.length_derive secret purpose, ConcatKdf.derive_eq_take secret purpose, ?_⟩
      exact ConcatKdf.exists_fill? secret bounded
  case described =>
      intro purpose other bounded otherBounded same
      exact ConcatKdf.describe_inj bounded otherBounded same
  case hashed =>
      intro secret purpose other counter later bounded otherBounded fits laterFits same
      exact ConcatKdf.input_inj bounded otherBounded fits laterFits same
  case purposes =>
      intro wrap otherWrap encryption otherEncryption sender recipient otherSender otherRecipient
      exact purposeOf_eq_iff

/-- A key for the content itself, between parties of these names. -/
def between (sender recipient : String) : Purpose :=
  purposeOf none (.gcm .bits128) (Bytes.ofText sender) (Bytes.ofText recipient)

/-- The secret of RFC 7518, appendix C. -/
def publishedSecret : Bytes := Bytes.ofNat 32 0x9e56d91d817135d372834283bf84269cfb316ea3da806a48f6daa7798cfe90c4

/-- The key that is published there, after one round, and the same letters cut into names elsewhere. -/
theorem derives_for_one_purpose_published :
    (between "Alice" "Bob").Bounded ∧ (between "AliceBob" "").Bounded ∧
      agreedKey none (.gcm .bits128) publishedSecret (Bytes.ofText "Alice") (Bytes.ofText "Bob") =
        Bytes.ofNat 16 0x56aa8deaf8236d205c2228cd71a7101a ∧
      (∃ digests, ConcatKdf.fill? publishedSecret (between "Alice" "Bob").describe 16 1 [] = some digests ∧
        Bytes.ofNat 16 0x56aa8deaf8236d205c2228cd71a7101a = digests.take 16) ∧
      (between "Alice" "Bob").describe ≠ (between "AliceBob" "").describe ∧
      ConcatKdf.input publishedSecret (between "Alice" "Bob").describe 1 ≠
        ConcatKdf.input publishedSecret (between "AliceBob" "").describe 1 := by
  obtain ⟨derives, told, toldWithCounter, agrees, alike⟩ := derives_for_one_purpose
  have bounded : (between "Alice" "Bob").Bounded := ⟨by decide, by decide, by decide, by decide⟩
  have otherBounded : (between "AliceBob" "").Bounded := ⟨by decide, by decide, by decide, by decide⟩
  have published : ConcatKdf.derive publishedSecret (between "Alice" "Bob") =
      Bytes.ofNat 16 0x56aa8deaf8236d205c2228cd71a7101a := by decide +kernel
  have different : between "Alice" "Bob" ≠ between "AliceBob" "" := by
    intro same
    obtain ⟨_, _, senders, _⟩ := (alike _ _ _ _ _ _ _ _).mp same
    exact absurd (Utf8.ofText_injective senders) (by decide)
  obtain ⟨_, _, filled⟩ := derives publishedSecret _ bounded
  rw [published] at filled
  refine ⟨bounded, otherBounded, (agrees _ _ _ _ _).trans published, filled, ?described, ?hashed⟩
  case described =>
      intro same
      exact different (told _ _ bounded otherBounded same)
  case hashed =>
      intro same
      obtain ⟨_, purposes⟩ := toldWithCounter _ _ _ 1 1 bounded otherBounded (by decide) (by decide) same
      exact different purposes

end WebToken.KeyManagement
