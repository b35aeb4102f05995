import WebToken.Proofs.Jwe.Compact
import WebToken.Proofs.Jwe.RoundTrip
import WebToken.Proofs.Text.Utf8

/-!
What the tag of an encrypted token covers. The keyed hash is made of the first segment as received, the
initialization vector and the ciphertext, and the text that it is made of can be cut into the three in one way
only.
-/

namespace WebToken.Jwe

open Aes (KeySize)
open ContentEncryption (cbcHmac)

/-- A text is read as a token with a keyed hash as its tag, and the token is decrypted. -/
structure Accepted (text : String) (jwe : Jwe) (size : KeySize) (key : Key) (draws : Draws) (plaintext : Bytes) :
    Prop where
  parsed : parse text = .ok jwe
  encryption : jwe.header.enc = some (cbcHmac size).name
  decrypted : jwe.decrypt key draws = .ok plaintext

/-- The tag of content is the leading half of the keyed hash, under the first half of the content key, of a header's
text, the initialization vector and the ciphertext. -/
structure Tagged (size : KeySize) (contentKey : Bytes) (headerText : String) (content : Sealed) : Prop where
  key : contentKey.length = (cbcHmac size).keyLength
  iv : content.iv.length = 16
  tag : content.tag = ((CbcHmac.hashOf size).hmac (contentKey.take ((cbcHmac size).keyLength / 2))
    (CbcHmac.authenticated (Bytes.ofText headerText) content.iv content.ciphertext)).take ((cbcHmac size).keyLength / 2)
  length : content.tag.length = (cbcHmac size).keyLength / 2

variable {size : KeySize} {contentKey plaintext : Bytes} {headerText : String} {content : Sealed} {key : Key}
  {draws : Draws} {text : String} {jwe : Jwe}

theorem tagged_of_openContent
    (opened : (cbcHmac size).openContent contentKey (Bytes.ofText headerText) content = .ok plaintext) :
    Tagged size contentKey headerText content := by
  rw [ContentEncryption.openContent] at opened
  split at opened
  · cases opened
  · rename_i sized
    obtain ⟨⟨whole, _, _⟩, same, _⟩ := CbcHmac.openText?_eq_some.mp (require_eq_ok.mp opened)
    have half : (cbcHmac size).keyLength / 2 = size.bytes := Nat.mul_div_cancel_left _ (by decide)
    refine ⟨Decidable.not_not.mp sized, whole, ?_, ?_⟩
    · rw [half, ← same, CbcHmac.tag]
    · rw [half, ← same, CbcHmac.length_tag]

/-- The encryption that the header names opens the content with the key that was recovered. -/
theorem Accepted.tagged (accepted : Accepted text jwe size key draws plaintext) :
    ∃ algorithm parameters contentKey, algorithm.name = jwe.header.alg ∧ keyParameters jwe.header = .ok parameters ∧
      KeyManagement.recover algorithm (cbcHmac size) key draws jwe.encryptedKey parameters = .ok contentKey ∧
      Tagged size contentKey jwe.protectedText jwe.content := by
  obtain ⟨algorithm, encryption, parameters, contentKey, named, found, read, recovered, opened⟩ :=
    decrypt_eq_ok.mp accepted.decrypted
  rw [accepted.encryption, Option.getD_some, ContentEncryption.ofName?_name] at found
  obtain rfl := Option.some.inj found
  exact ⟨algorithm, parameters, contentKey, named, read, recovered, tagged_of_openContent opened⟩

/-- Associated data, an initialization vector and a ciphertext are told by the text that the keyed hash is made of, if
the data is shorter than 2^61 bytes. In an accepted token that hash, under the first half of the recovered content key,
is made of the first segment exactly as received, and the whole leading half of it is the tag. So two accepted tokens
have one such text only if their first segments, initialization vectors and ciphertexts are the same. -/
theorem decrypt_authenticates :
    (∀ associated other iv another ciphertext text : Bytes, associated.length < Nat.pow 2 61 →
      other.length < Nat.pow 2 61 → iv.length = 16 → another.length = 16 →
        CbcHmac.authenticated associated iv ciphertext = CbcHmac.authenticated other another text →
          associated = other ∧ iv = another ∧ ciphertext = text) ∧
    (∀ text jwe size key draws plaintext, Accepted text jwe size key draws plaintext →
      ∃ first rest algorithm parameters contentKey, Text.dotted (Text.trim text) = first :: rest ∧
        Header.decode first = .ok jwe.header ∧ algorithm.name = jwe.header.alg ∧
        keyParameters jwe.header = .ok parameters ∧
        KeyManagement.recover algorithm (cbcHmac size) key draws jwe.encryptedKey parameters = .ok contentKey ∧
        Tagged size contentKey first jwe.content) ∧
    ∀ text other jwe another size otherSize key otherKey draws later plaintext otherPlaintext,
      Accepted text jwe size key draws plaintext → Accepted other another otherSize otherKey later otherPlaintext →
        (Bytes.ofText jwe.protectedText).length < Nat.pow 2 61 →
        (Bytes.ofText another.protectedText).length < Nat.pow 2 61 →
          CbcHmac.authenticated (Bytes.ofText jwe.protectedText) jwe.content.iv jwe.content.ciphertext =
            CbcHmac.authenticated (Bytes.ofText another.protectedText) another.content.iv another.content.ciphertext →
          (Text.dotted (Text.trim text)).head? = (Text.dotted (Text.trim other)).head? ∧ jwe.header = another.header ∧
            jwe.content.iv = another.content.iv ∧ jwe.content.ciphertext = another.content.ciphertext := by
  refine ⟨?injective, ?covered, ?alike⟩
  case injective =>
      intro associated other iv another ciphertext text short otherShort sized anotherSized same
      have lengths : iv.length = another.length := sized.trans anotherSized.symm
      exact CbcHmac.authenticated_inj short otherShort lengths same
  case covered =>
      intro text jwe size key draws plaintext accepted
      obtain ⟨decoded, _, _, _, _, _, cut, _⟩ := parse_eq_ok.mp accepted.parsed
      obtain ⟨algorithm, parameters, contentKey, named, read, recovered, tagged⟩ := accepted.tagged
      exact ⟨_, _, algorithm, parameters, contentKey, cut, decoded, named, read, recovered, tagged⟩
  case alike =>
      intro text other jwe another size otherSize key otherKey draws later plaintext otherPlaintext accepted
        otherAccepted short otherShort same
      obtain ⟨decoded, _, _, _, _, _, cut, _⟩ := parse_eq_ok.mp accepted.parsed
      obtain ⟨otherDecoded, _, _, _, _, _, otherCut, _⟩ := parse_eq_ok.mp otherAccepted.parsed
      obtain ⟨_, _, _, _, _, _, tagged⟩ := accepted.tagged
      obtain ⟨_, _, _, _, _, _, otherTagged⟩ := otherAccepted.tagged
      have lengths : jwe.content.iv.length = another.content.iv.length := tagged.iv.trans otherTagged.iv.symm
      obtain ⟨texts, ivs, ciphertexts⟩ := CbcHmac.authenticated_inj short otherShort lengths same
      -- The header was read from the segment that is covered, and so is the same header.
      have first : jwe.protectedText = another.protectedText := Utf8.ofText_injective texts
      rw [first] at decoded cut
      have headers : jwe.header = another.header := Except.ok.inj (decoded.symm.trans otherDecoded)
      rw [cut, otherCut]
      exact ⟨rfl, headers, ivs, ciphertexts⟩

/-- A secret that is the content key itself. -/
def directKey : Key := .symmetric "a" (List.replicate 32 7)

/-- A token for that secret, and the same token on a line of its own. -/
theorem decrypt_authenticates_direct :
    ∃ text jwe first rest, Accepted text jwe .bits128 directKey (.constant 0 0) [1, 2, 3] ∧
      Text.dotted (Text.trim text) = first :: rest ∧ Tagged .bits128 (List.replicate 32 7) first jwe.content ∧
      (Text.dotted (Text.trim ("" ++ text ++ "\n"))).head? = some first := by
  have delivers : KeyManagement.Delivers (cbcHmac .bits128) directKey.toPublic (.constant 0 0) .direct _ :=
    .direct rfl rfl
  obtain ⟨text, made⟩ : ∃ text, encryptCompact .direct (cbcHmac .bits128) directKey.toPublic (.constant 0 0) [1, 2, 3]
      none = .ok text := exists_encryptCompact delivers.deliver rfl
  obtain ⟨delivery, content, delivered, contentMade, parsed⟩ := parse_encryptCompact made
  have decrypted := decrypt_delivered rfl (KeyManagement.trusted_symmetric _ _) delivered contentMade (.constant 0 0)
  have accepted : Accepted text _ .bits128 directKey (.constant 0 0) [1, 2, 3] := ⟨parsed, rfl, decrypted⟩
  have parsedToo : parse ("" ++ text ++ "\n") = parse text :=
    parse_surround (List.all_eq_true.mp (by decide)) (List.all_eq_true.mp (by decide))
  have surrounded : Accepted ("" ++ text ++ "\n") _ .bits128 directKey (.constant 0 0) [1, 2, 3] :=
    ⟨parsedToo.trans parsed, rfl, decrypted⟩
  obtain rfl := Except.ok.inj (delivers.deliver.symm.trans delivered)
  have short : (Bytes.ofText (headerOf .direct (cbcHmac .bits128) directKey.toPublic
      { contentKey := List.replicate 32 7, encryptedKey := [] } none).encode).length < Nat.pow 2 61 := by
    decide +kernel
  obtain ⟨_, covers, told⟩ := decrypt_authenticates
  obtain ⟨first, rest, algorithm, parameters, contentKey, cut, _, named, _, recovered, tagged⟩ :=
    covers _ _ _ _ _ _ accepted
  obtain ⟨same, _⟩ := told _ _ _ _ _ _ _ _ _ _ _ _ accepted surrounded short short rfl
  obtain rfl : algorithm = .direct :=
    Option.some.inj ((KeyAlgorithm.ofName?_eq_some.mpr named).symm.trans (KeyAlgorithm.ofName?_name .direct))
  obtain rfl : List.replicate 32 7 = contentKey := Except.ok.inj recovered
  have opening : (Text.dotted (Text.trim ("" ++ text ++ "\n"))).head? = some first := by
    rw [← same, cut, List.head?_cons]
  exact ⟨text, _, first, rest, accepted, cut, tagged, opening⟩

end WebToken.Jwe
