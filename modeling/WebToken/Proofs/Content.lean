import WebToken.Content
import WebToken.Proofs.Cipher.CbcHmac
import WebToken.Proofs.Cipher.Gcm

/-!
Content encryption: what was sealed is opened with the same key and the same associated data. With a keyed
hash as its tag nothing else is opened.
-/

namespace WebToken.ContentEncryption

variable {encryption : ContentEncryption} {draws : Draws} {key associated plaintext : Bytes} {content : Sealed}

theorem exists_sealContent (sized : key.length = encryption.keyLength) :
    ∃ content, encryption.sealContent draws key associated plaintext = .ok content := by
  rw [sealContent, if_neg fun other => other sized]
  exact ⟨_, rfl⟩

theorem openContent_sealContent (made : encryption.sealContent draws key associated plaintext = .ok content) :
    encryption.openContent key associated content = .ok plaintext := by
  rw [sealContent] at made
  split at made
  · cases made
  · rename_i sized
    obtain rfl := Except.ok.inj made
    unfold openContent
    rw [if_neg sized, require_eq_ok]
    cases encryption with
    | gcm size =>
        have whole : (draws.contentIv.take (gcm size).ivLength).length = Gcm.ivSize := ByteSource.length_take _ _
        have opened := Gcm.openText?_sealText size key associated plaintext whole
        dsimp only
        generalize Gcm.sealText size key _ associated plaintext = made at opened ⊢
        exact opened
    | cbcHmac size =>
        have whole : (draws.contentIv.take (cbcHmac size).ivLength).length = CbcHmac.ivSize :=
          ByteSource.length_take _ _
        have opened := CbcHmac.openText?_sealText size key associated plaintext whole
        dsimp only
        generalize CbcHmac.sealText size key _ associated plaintext = made at opened ⊢
        exact opened

section KeyedHash

variable {size : Aes.KeySize}

theorem sealContent_cbcHmac_eq_ok (sized : key.length = (cbcHmac size).keyLength) :
    (cbcHmac size).sealContent draws key associated plaintext = .ok content ↔
      content.iv = draws.contentIv.take CbcHmac.ivSize ∧
        CbcHmac.sealText size key content.iv associated plaintext = (content.ciphertext, content.tag) := by
  rw [sealContent, if_neg fun other => other sized, Except.ok.injEq]
  obtain ⟨iv, ciphertext, tag⟩ := content
  constructor
  · intro made
    obtain ⟨rfl, rfl, rfl⟩ := Sealed.mk.inj made
    exact ⟨rfl, rfl⟩
  · rintro ⟨rfl, made⟩
    exact congrArg (fun pair : Bytes × Bytes => (⟨_, pair.1, pair.2⟩ : Sealed)) made

theorem openContent_cbcHmac_eq_ok (sized : key.length = (cbcHmac size).keyLength) :
    (cbcHmac size).openContent key associated content = .ok plaintext ↔
      content.iv.length = CbcHmac.ivSize ∧
        CbcHmac.sealText size key content.iv associated plaintext = (content.ciphertext, content.tag) := by
  rw [openContent, if_neg fun other => other sized, require_eq_ok]
  exact CbcHmac.openText?_eq_some_iff_sealText

theorem openWithin?_eq_openContent (sized : key.length = (cbcHmac size).keyLength) :
    CbcHmac.openWithin? size key content.iv associated content.ciphertext content.tag =
      some ((cbcHmac size).openContent key associated content).toOption := by
  rw [CbcHmac.openWithin?_eq, openContent, if_neg fun other => other sized]
  cases CbcHmac.openText? size key content.iv associated content.ciphertext content.tag <;> rfl

theorem exists_drawn {iv : Bytes} (whole : iv.length = 16) : ∃ draws : Draws, draws.contentIv.take 16 = iv := by
  obtain ⟨source, taken⟩ := ByteSource.exists_take iv
  exact ⟨{ Draws.constant 0 0 with contentIv := source }, whole ▸ taken⟩

theorem sealContent_of_openContent (sized : key.length = (cbcHmac size).keyLength)
    (opened : (cbcHmac size).openContent key associated content = .ok plaintext)
    (same : draws.contentIv.take 16 = content.iv) :
    (cbcHmac size).sealContent draws key associated plaintext = .ok content :=
  (sealContent_cbcHmac_eq_ok sized).mpr ⟨same.symm, ((openContent_cbcHmac_eq_ok sized).mp opened).2⟩

/-- With a content key of the right length and any associated data, a plaintext is sealed under whatever sixteen bytes
are drawn, and opens again. Content that opens is what its plaintext is sealed as whenever the same bytes are drawn;
content that no plaintext is sealed as cannot be decrypted. No opening looks outside of the bytes that are there,
whatever their lengths. -/
theorem cbcHmac_opens_what_it_seals (size : Aes.KeySize) {key : Bytes} (sized : key.length = (cbcHmac size).keyLength)
    (associated : Bytes) :
    (∀ (draws : Draws) (plaintext : Bytes), ∃ content,
      (cbcHmac size).sealContent draws key associated plaintext = .ok content ∧
        content.iv = draws.contentIv.take 16 ∧
        (cbcHmac size).openContent key associated content = .ok plaintext) ∧
    (∀ iv : Bytes, iv.length = 16 → ∃ draws : Draws, draws.contentIv.take 16 = iv) ∧
    (∀ (content : Sealed) (plaintext : Bytes), (cbcHmac size).openContent key associated content = .ok plaintext →
      content.iv.length = 16 ∧ ∀ draws : Draws, draws.contentIv.take 16 = content.iv →
        (cbcHmac size).sealContent draws key associated plaintext = .ok content) ∧
    (∀ content : Sealed, (∀ (draws : Draws) (plaintext : Bytes),
        (cbcHmac size).sealContent draws key associated plaintext ≠ .ok content) →
      (cbcHmac size).openContent key associated content = .error .decryptionFailed) ∧
    ∀ content : Sealed, CbcHmac.openWithin? size key content.iv associated content.ciphertext content.tag =
      some ((cbcHmac size).openContent key associated content).toOption := by
  refine ⟨?opens, ?drawn, ?again, ?refused, ?within⟩
  case opens =>
      intro draws plaintext
      obtain ⟨content, made⟩ : ∃ content, (cbcHmac size).sealContent draws key associated plaintext = .ok content :=
        exists_sealContent sized
      obtain ⟨iv, _⟩ := (sealContent_cbcHmac_eq_ok sized).mp made
      exact ⟨content, made, iv, openContent_sealContent made⟩
  case drawn =>
      intro iv length
      exact exists_drawn length
  case again =>
      intro content plaintext opened
      obtain ⟨length, _⟩ := (openContent_cbcHmac_eq_ok sized).mp opened
      refine ⟨length, ?_⟩
      intro draws same
      exact sealContent_of_openContent sized opened same
  case refused =>
      intro content other
      cases opened : (cbcHmac size).openContent key associated content with
      | ok plaintext =>
          obtain ⟨length, _⟩ := (openContent_cbcHmac_eq_ok sized).mp opened
          obtain ⟨draws, same⟩ := exists_drawn length
          exact absurd (sealContent_of_openContent sized opened same) (other draws plaintext)
      | error cause =>
          rw [openContent, if_neg fun other => other sized, require_eq_error] at opened
          rw [opened.2]
  case within =>
      intro content
      exact openWithin?_eq_openContent sized

/-- A plaintext of whole blocks, and what it is sealed as without its initialization vector. -/
theorem cbcHmac_opens_what_it_seals_blocks :
    ∃ content, (cbcHmac .bits192).sealContent (.constant 9 0) (List.replicate 48 7) [1] (List.replicate 32 0) =
        .ok content ∧
      (cbcHmac .bits192).openContent (List.replicate 48 7) [1] content = .ok (List.replicate 32 0) ∧
      (cbcHmac .bits192).openContent (List.replicate 48 7) [1] { content with iv := [] } =
        .error .decryptionFailed := by
  have sized : (List.replicate 48 (7 : UInt8)).length = (cbcHmac .bits192).keyLength := by decide
  obtain ⟨seals, _, again, refuses, _⟩ := cbcHmac_opens_what_it_seals .bits192 sized [1]
  obtain ⟨content, _, same, opened⟩ := seals (.constant 9 0) (List.replicate 32 0)
  have made := (again content _ opened).2 (.constant 9 0) same.symm
  refine ⟨content, made, opened, refuses _ fun draws plaintext without => ?_⟩
  have length := congrArg List.length ((sealContent_cbcHmac_eq_ok sized).mp without).1
  rw [ByteSource.length_take] at length
  cases length

end KeyedHash

end WebToken.ContentEncryption
