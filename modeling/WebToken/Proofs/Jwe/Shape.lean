import WebToken.Proofs.Jwe.Compact
import WebToken.Proofs.Jwe.RoundTrip

/-!
The shape of encrypted tokens. What is made for one recipient with the same draws differs from plaintext to plaintext
in the ciphertext and the tag only, and how long these are follows from the length of the plaintext.
-/

namespace WebToken

def Sealed.lengths (content : Sealed) : Nat × Nat × Nat :=
  (content.iv.length, content.ciphertext.length, content.tag.length)

namespace ContentEncryption

/-- The lengths of the initialization vector, the ciphertext and the tag of a plaintext of `length` bytes. In blocks
there is room for at least one byte of padding. -/
def sealedLengths (encryption : ContentEncryption) (length : Nat) : Nat × Nat × Nat :=
  match encryption with
  | gcm _ => (12, length, 16)
  | cbcHmac _ => (16, 16 * (length / 16 + 1), encryption.keyLength / 2)

variable {encryption : ContentEncryption} {draws : Draws} {key associated plaintext : Bytes} {content : Sealed}

theorem iv_sealContent (made : encryption.sealContent draws key associated plaintext = .ok content) :
    content.iv = draws.contentIv.take encryption.ivLength := by
  rw [sealContent] at made
  split at made
  · cases made
  · obtain rfl := Except.ok.inj made
    rfl

theorem lengths_sealContent (made : encryption.sealContent draws key associated plaintext = .ok content) :
    content.lengths = encryption.sealedLengths plaintext.length := by
  rw [sealContent] at made
  split at made
  · cases made
  · obtain rfl := Except.ok.inj made
    cases encryption with
    | gcm size =>
        simp only [Sealed.lengths, sealedLengths, ByteSource.length_take, Gcm.length_sealText]
        rw [Gcm.sealText, Gcm.length_tag]
        rfl
    | cbcHmac size =>
        have half : (cbcHmac size).keyLength / 2 = size.bytes := Nat.mul_div_cancel_left _ (by decide)
        simp only [Sealed.lengths, sealedLengths, ByteSource.length_take, CbcHmac.length_sealText, half]
        rw [CbcHmac.sealText, CbcHmac.length_tag]
        rfl

end ContentEncryption

namespace KeyManagement

/-- The length of the encrypted key for a recipient: there is none if the content key is shared or agreed on,
wrapping adds half of a block, sealing adds nothing, and with RSA it is the length of the modulus. -/
def encryptedLength (encryption : ContentEncryption) (recipient : Material) : KeyAlgorithm → Nat
  | .ed25519 | .direct | .agreement none => 0
  | .aesWrap _ | .agreement (some _) | .password _ => encryption.keyLength + 8
  | .gcmWrap _ => encryption.keyLength
  | .rsaPkcs1 | .rsaOaep _ =>
      match recipient.public? with
      | some (.rsaPublic key) => key.size
      | _ => 0

variable {algorithm : KeyAlgorithm} {encryption : ContentEncryption} {key : Key} {draws : Draws} {delivery : Delivery}

theorem length_drawnKey (encryption : ContentEncryption) (draws : Draws) :
    (drawnKey encryption draws).length = encryption.keyLength := ByteSource.length_take _ _

theorem length_wrap {size : Aes.KeySize} {secret contentKey wrapped : Bytes}
    (made : wrap size secret contentKey = .ok wrapped) : wrapped.length = contentKey.length + 8 :=
  KeyWrap.length_of_wrap? (require_eq_ok.mp made)

theorem length_rsaEncrypt {recipient : Rsa.PublicKey} {contentKey encrypted : Bytes}
    (made : rsaEncrypt algorithm draws recipient contentKey = .ok encrypted) : encrypted.length = recipient.size := by
  unfold rsaEncrypt at made
  split at made
  case h_1 hash =>
      rw [Rsa.Oaep.encrypt] at made
      split at made
      · cases made
      · rw [← Except.ok.inj made, Bytes.length_ofNat]
  case h_2 =>
      rw [Rsa.Pkcs1.encrypt] at made
      split at made
      · cases made
      · rw [← Except.ok.inj made, Bytes.length_ofNat]

theorem Delivers.length_encryptedKey (delivers : Delivers encryption key draws algorithm delivery) :
    delivery.encryptedKey.length = encryptedLength encryption key.material algorithm := by
  cases delivers with
  | direct => rfl
  | aesWrap _ _ wraps => rw [length_wrap wraps, length_drawnKey, encryptedLength]
  | rsaPkcs1 half encrypts => rw [length_rsaEncrypt encrypts, encryptedLength, half]
  | rsaOaep half encrypts => rw [length_rsaEncrypt encrypts, encryptedLength, half]
  | agreement => rfl
  | agreementWrap _ wraps => rw [length_wrap wraps, length_drawnKey, encryptedLength]
  | @gcmWrap size secret encrypted tag _ _ seals =>
      have sealed := congrArg (·.1.length) seals
      simp only [Gcm.length_sealText, length_drawnKey] at sealed
      rw [← sealed, encryptedLength]
  | password _ _ wraps => rw [length_wrap wraps, length_drawnKey, encryptedLength]

end KeyManagement

namespace Jwe

def segments (jwe : Jwe) : List String :=
  [jwe.protectedText, Base64Url.encode jwe.encryptedKey, Base64Url.encode jwe.content.iv,
    Base64Url.encode jwe.content.ciphertext, Base64Url.encode jwe.content.tag]

variable {algorithm : KeyAlgorithm} {encryption : ContentEncryption} {key : Key} {draws : Draws}
  {plaintext : Bytes} {contentType : Option String} {token : String}

theorem dotted_encryptCompact {jwe : Jwe} (parsed : parse token = .ok jwe)
    (made : encryptCompact algorithm encryption key draws plaintext contentType = .ok token) :
    Text.dotted token = jwe.segments := by
  obtain ⟨delivery, content, _, _, rfl⟩ := encryptCompact_eq_ok.mp made
  have cut := (parse_eq_ok_iff_compact.mp parsed).segments_eq
  rwa [Text.trim_joinDotted (segments_encryptCompact _ _ _)] at cut

/-- Sealed contents with the same lengths are written with the same lengths. -/
theorem length_segments {header : Header} {protectedText : String} {encryptedKey : Bytes} {content other : Sealed}
    (same : content.lengths = other.lengths) :
    (segments ⟨header, protectedText, encryptedKey, content⟩).map String.length =
      (segments ⟨header, protectedText, encryptedKey, other⟩).map String.length := by
  simp only [Sealed.lengths, Prod.mk.injEq] at same
  obtain ⟨iv, ciphertext, tag⟩ := same
  simp only [segments, List.map_cons, Base64Url.length_encode, iv, ciphertext, tag]

/-- An encrypted token shows no more of its plaintext than the length. The lengths of its encrypted key and of its
content follow from the algorithms, the recipient and the length of the plaintext. For one recipient, with the same
draws, two plaintexts of one length give tokens that agree on the header, the encrypted key and the initialization
vector, and whose segments are as long as each other. -/
theorem encryptCompact_shows_length (algorithm : KeyAlgorithm) (encryption : ContentEncryption) (key : Key)
    (draws : Draws) (contentType : Option String) :
    (∀ plaintext token, encryptCompact algorithm encryption key draws plaintext contentType = .ok token →
      ∃ jwe, parse token = .ok jwe ∧ Text.dotted token = jwe.segments ∧
        jwe.encryptedKey.length = KeyManagement.encryptedLength encryption key.material algorithm ∧
        jwe.content.lengths = encryption.sealedLengths plaintext.length) ∧
    ∀ plaintext other token another, plaintext.length = other.length →
      encryptCompact algorithm encryption key draws plaintext contentType = .ok token →
      encryptCompact algorithm encryption key draws other contentType = .ok another →
        (Text.dotted token).take 3 = (Text.dotted another).take 3 ∧
          (Text.dotted token).map String.length = (Text.dotted another).map String.length ∧
          ∃ header protectedText encryptedKey content otherContent,
            parse token = .ok ⟨header, protectedText, encryptedKey, content⟩ ∧
            parse another = .ok ⟨header, protectedText, encryptedKey, otherContent⟩ ∧
            content.lengths = otherContent.lengths := by
  constructor
  · intro plaintext token made
    obtain ⟨delivery, content, delivered, contentMade, parsed⟩ := parse_encryptCompact made
    have delivers : KeyManagement.Delivers encryption key draws algorithm delivery :=
      KeyManagement.delivers_of_deliver delivered
    have lengths : content.lengths = encryption.sealedLengths plaintext.length :=
      ContentEncryption.lengths_sealContent contentMade
    exact ⟨_, parsed, dotted_encryptCompact parsed made, delivers.length_encryptedKey, lengths⟩
  · intro plaintext other token another sized made alsoMade
    obtain ⟨delivery, content, delivered, contentMade, parsed⟩ := parse_encryptCompact made
    obtain ⟨found, otherContent, again, otherMade, otherParsed⟩ := parse_encryptCompact alsoMade
    -- The content key is delivered without a look at the plaintext.
    obtain rfl : delivery = found := Except.ok.inj (delivered.symm.trans again)
    have lengths : content.lengths = otherContent.lengths := by
      rw [ContentEncryption.lengths_sealContent contentMade, ContentEncryption.lengths_sealContent otherMade, sized]
    have vectors : content.iv = otherContent.iv :=
      (ContentEncryption.iv_sealContent contentMade).trans (ContentEncryption.iv_sealContent otherMade).symm
    refine ⟨?alike, ?sized, _, _, _, content, otherContent, parsed, otherParsed, lengths⟩
    case alike =>
        rw [dotted_encryptCompact parsed made, dotted_encryptCompact otherParsed alsoMade]
        simp only [segments, List.take_succ_cons, List.take_zero, vectors]
    case sized =>
        rw [dotted_encryptCompact parsed made, dotted_encryptCompact otherParsed alsoMade]
        exact length_segments lengths

/-- Two plaintexts that fill a block, under a content key that is wrapped. -/
theorem encryptCompact_shows_length_block :
    let key : Key := .symmetric "a" (List.replicate 16 7)
    let encrypted (plaintext : Bytes) :=
      encryptCompact (.aesWrap .bits128) (.cbcHmac .bits192) key (.constant 3 0) plaintext (some "JWT")
    ∃ token another jwe, encrypted (List.replicate 16 0) = .ok token ∧ encrypted (List.replicate 16 255) = .ok another ∧
      parse token = .ok jwe ∧ jwe.encryptedKey.length = 56 ∧ jwe.content.lengths = (16, 32, 24) ∧
      (Text.dotted token).take 3 = (Text.dotted another).take 3 := by
  intro key encrypted
  obtain ⟨wrapped, wraps⟩ : ∃ wrapped, KeyManagement.wrap .bits128 (List.replicate 16 7)
      (KeyManagement.drawnKey (.cbcHmac .bits192) (.constant 3 0)) = .ok wrapped :=
    KeyManagement.exists_wrap.mpr (by decide)
  have delivers : KeyManagement.Delivers (.cbcHmac .bits192) key (.constant 3 0) (.aesWrap .bits128) _ :=
    .aesWrap rfl (by decide) wraps
  have exists_token (plaintext : Bytes) : ∃ token, encrypted plaintext = .ok token :=
    exists_encryptCompact delivers.deliver (KeyManagement.length_drawnKey _ _)
  obtain ⟨token, made⟩ := exists_token (List.replicate 16 0)
  obtain ⟨another, alsoMade⟩ := exists_token (List.replicate 16 255)
  obtain ⟨shaped, alike⟩ :=
    encryptCompact_shows_length (.aesWrap .bits128) (.cbcHmac .bits192) key (.constant 3 0) (some "JWT")
  obtain ⟨jwe, parsed, _, keyLength, lengths⟩ := shaped _ token made
  have sized : (List.replicate 16 (0 : UInt8)).length = (List.replicate 16 (255 : UInt8)).length := by
    simp only [List.length_replicate]
  obtain ⟨agree, _⟩ := alike _ _ token another sized made alsoMade
  exact ⟨token, another, jwe, made, alsoMade, parsed, keyLength, lengths, agree⟩

end Jwe

end WebToken
