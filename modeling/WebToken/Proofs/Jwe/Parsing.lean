import WebToken.Jwe

/-!
Encrypted tokens as received: the five segments of a text and the token that they make.
-/

namespace WebToken.Jwe

/-- What five segments stand for. The first one is kept as received. -/
structure Made (segments : List String) (jwe : Jwe) : Prop where
  header : Header.decode jwe.protectedText = .ok jwe.header
  encrypted : jwe.header.enc ≠ none
  cut : ∃ encryptedKey iv ciphertext tag, segments = [jwe.protectedText, encryptedKey, iv, ciphertext, tag] ∧
    Base64Url.decode? encryptedKey = some jwe.encryptedKey ∧ Base64Url.decode? iv = some jwe.content.iv ∧
    Base64Url.decode? ciphertext = some jwe.content.ciphertext ∧ Base64Url.decode? tag = some jwe.content.tag

theorem parse_eq_ok {text : String} {jwe : Jwe} :
    parse text = .ok jwe ↔ Made (Text.dotted (Text.trim text)) jwe := by
  unfold parse
  split
  case h_1 protectedText encryptedKey iv ciphertext tag cut =>
      rw [cut]
      constructor
      · intro made
        obtain ⟨header, decoded, made⟩ := bind_eq_ok.mp made
        cases named : header.enc with
        | none =>
            simp only [named, Option.isNone_none, if_true] at made
            cases made
        | some name =>
            simp only [named, Option.isNone_some, Bool.false_eq_true, if_false] at made
            obtain ⟨keyBytes, keyRead, made⟩ := bind_eq_ok.mp made
            obtain ⟨ivBytes, ivRead, made⟩ := bind_eq_ok.mp made
            obtain ⟨textBytes, textRead, made⟩ := bind_eq_ok.mp made
            obtain ⟨tagBytes, tagRead, made⟩ := bind_eq_ok.mp made
            obtain rfl := Except.ok.inj made
            refine ⟨decoded, ?_, encryptedKey, iv, ciphertext, tag, rfl, require_eq_ok.mp keyRead,
              require_eq_ok.mp ivRead, require_eq_ok.mp textRead, require_eq_ok.mp tagRead⟩
            rw [named]
            exact Option.some_ne_none name
      · intro given
        obtain ⟨decoded, encrypted, _, _, _, _, same, keyRead, ivRead, textRead, tagRead⟩ := given
        obtain ⟨header, received, keyBytes, ⟨ivBytes, textBytes, tagBytes⟩⟩ := jwe
        simp only [List.cons.injEq, and_true] at same
        obtain ⟨rfl, rfl, rfl, rfl, rfl⟩ := same
        have present : header.enc.isNone = false :=
          Option.isNone_eq_false_iff.mpr (Option.isSome_iff_ne_none.mpr encrypted)
        rw [decoded, ok_bind, present, partBytes, keyRead, partBytes, ivRead, partBytes, textRead, partBytes,
          tagRead]
        rfl
  case h_2 other =>
      constructor
      · intro made
        cases made
      · intro given
        obtain ⟨_, _, _, _, _, _, cut, _⟩ := given
        exact absurd cut (other _ _ _ _ _)

end WebToken.Jwe
