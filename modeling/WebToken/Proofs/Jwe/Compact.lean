import WebToken.Proofs.Header
import WebToken.Proofs.Jwe.Parsing
import WebToken.Proofs.Text.Segment

/-!
The written form of encrypted tokens. A text is read as a token exactly when, without the white space
around it, it is the five segments that the token is written as, so every token has one written form.
-/

namespace WebToken.Jwe

/-- The segments that a token is written as. The first one spells its header. -/
inductive Compact : List String → Jwe → Prop
  | mk {first : String} {header : Header} (spelled : Header.Spelled first header) (uncritical : header.crit = none)
      (encrypted : header.enc ≠ none) (encryptedKey : Bytes) (content : Sealed) :
      Compact [first, Base64Url.encode encryptedKey, Base64Url.encode content.iv,
        Base64Url.encode content.ciphertext, Base64Url.encode content.tag] ⟨header, first, encryptedKey, content⟩

/-- Why segments are refused: for their number, for the header, or for the first of the others that is no
base64url text. -/
inductive Refused : List String → TokenFlaw → Prop
  | count {segments : List String} (unlike : segments.length ≠ 5) : Refused segments .encryptedSegments
  | header {first encryptedKey iv ciphertext tag : String} {flaw : TokenFlaw} (refused : Header.Refused first flaw) :
      Refused [first, encryptedKey, iv, ciphertext, tag] flaw
  | unencrypted {first encryptedKey iv ciphertext tag : String} {header : Header}
      (spelled : Header.Spelled first header) (uncritical : header.crit = none) (plain : header.enc = none) :
      Refused [first, encryptedKey, iv, ciphertext, tag] .noContentEncryption
  | part {first encryptedKey iv ciphertext tag : String} {header : Header} {flaw : TokenFlaw}
      (spelled : Header.Spelled first header) (uncritical : header.crit = none) (encrypted : header.enc ≠ none)
      (refused : PartRefused [("encrypted key", encryptedKey), ("iv", iv), ("ciphertext", ciphertext),
        ("authentication tag", tag)] flaw) :
      Refused [first, encryptedKey, iv, ciphertext, tag] flaw

variable {text other : String} {segments : List String} {jwe : Jwe} {flaw : TokenFlaw}

theorem made_iff_compact : Made segments jwe ↔ Compact segments jwe := by
  constructor
  · rintro ⟨decoded, encrypted, _, _, _, _, rfl, keyRead, ivRead, textRead, tagRead⟩
    obtain ⟨header, protectedText, encryptedKey, content⟩ := jwe
    obtain ⟨spelled, uncritical⟩ := Header.decode_eq_ok.mp decoded
    rw [Base64Url.decode?_eq_some_iff] at keyRead ivRead textRead tagRead
    subst keyRead ivRead textRead tagRead
    exact .mk spelled uncritical encrypted encryptedKey content
  · rintro ⟨spelled, uncritical, encrypted, encryptedKey, content⟩
    refine ⟨Header.decode_eq_ok.mpr ⟨spelled, uncritical⟩, encrypted, _, _, _, _, rfl, ?_, ?_, ?_, ?_⟩
    · exact Base64Url.decode?_encode encryptedKey
    · exact Base64Url.decode?_encode content.iv
    · exact Base64Url.decode?_encode content.ciphertext
    · exact Base64Url.decode?_encode content.tag

theorem parse_eq_ok_iff_compact : parse text = .ok jwe ↔ Compact (Text.dotted (Text.trim text)) jwe := by
  rw [parse_eq_ok, made_iff_compact]

theorem parse_eq_error : parse text = .error flaw ↔ Refused (Text.dotted (Text.trim text)) flaw := by
  unfold parse
  split
  case h_1 first encryptedKey iv ciphertext tag cut =>
      have read (header : Header) : (do
          let keyBytes ← partBytes "encrypted key" encryptedKey
          let ivBytes ← partBytes "iv" iv
          let textBytes ← partBytes "ciphertext" ciphertext
          let tagBytes ← partBytes "authentication tag" tag
          return (⟨header, first, keyBytes, ⟨ivBytes, textBytes, tagBytes⟩⟩ : Jwe)) = .error flaw ↔
            PartRefused [("encrypted key", encryptedKey), ("iv", iv), ("ciphertext", ciphertext),
              ("authentication tag", tag)] flaw := by
        refine partBytes_bind_eq_error fun _ => partBytes_bind_eq_error fun _ => partBytes_bind_eq_error fun _ =>
          partBytes_bind_eq_error fun _ => ?_
        exact ⟨nofun, nofun⟩
      rw [cut, bind_eq_error, Header.decode_eq_error]
      simp only [Header.decode_eq_ok]
      constructor
      · rintro (refused | ⟨header, ⟨spelled, uncritical⟩, refused⟩)
        · exact .header refused
        · cases named : header.enc with
          | none =>
              simp only [named, Option.isNone_none, if_true] at refused
              cases refused
              exact .unencrypted spelled uncritical named
          | some name =>
              simp only [named, Option.isNone_some, Bool.false_eq_true, if_false] at refused
              exact .part spelled uncritical (by simp [named]) ((read header).mp refused)
      · intro refused
        cases refused with
        | count unlike => exact absurd rfl unlike
        | header refused => exact Or.inl refused
        | @unencrypted _ _ _ _ _ header spelled uncritical plain =>
            refine Or.inr ⟨header, ⟨spelled, uncritical⟩, ?_⟩
            simp only [plain, Option.isNone_none, if_true]
            rfl
        | @part _ _ _ _ _ header _ spelled uncritical encrypted refused =>
            obtain ⟨name, named⟩ := Option.ne_none_iff_exists'.mp encrypted
            refine Or.inr ⟨header, ⟨spelled, uncritical⟩, ?_⟩
            simp only [named, Option.isNone_some, Bool.false_eq_true, if_false]
            exact (read header).mpr refused
  case h_2 other =>
      constructor
      · intro refused
        obtain rfl := Except.error.inj refused
        refine .count fun five => ?_
        match cut : Text.dotted (Text.trim text), five with
        | [_, _, _, _, _], _ => exact other _ _ _ _ _ cut
      · intro refused
        generalize Text.dotted (Text.trim text) = segments at refused other
        cases refused with
        | count => rfl
        | header => exact absurd rfl (other _ _ _ _ _)
        | unencrypted => exact absurd rfl (other _ _ _ _ _)
        | part => exact absurd rfl (other _ _ _ _ _)

/-- The segments that a token is written as follow from the token. -/
theorem Compact.segments_eq (written : Compact segments jwe) :
    segments = [jwe.protectedText, Base64Url.encode jwe.encryptedKey, Base64Url.encode jwe.content.iv,
      Base64Url.encode jwe.content.ciphertext, Base64Url.encode jwe.content.tag] := by
  cases written
  rfl

theorem trim_eq_of_parse (parsed : parse text = .ok jwe) :
    Text.trim text = Text.joinDotted [jwe.protectedText, Base64Url.encode jwe.encryptedKey,
      Base64Url.encode jwe.content.iv, Base64Url.encode jwe.content.ciphertext, Base64Url.encode jwe.content.tag] := by
  rw [← Text.joinDotted_dotted (Text.trim text), (parse_eq_ok_iff_compact.mp parsed).segments_eq]

theorem parse_surround {front back : String} (before : ∀ c ∈ front.toList, Text.isBlank c = true)
    (after : ∀ c ∈ back.toList, Text.isBlank c = true) : parse (front ++ text ++ back) = parse text := by
  rw [parse, Text.trim_surround text before after, parse]

/-- Encrypted tokens have one written form. A text is read as a token exactly when its segments are those
that the token is written as, and refused for the first thing that is wrong with them. The text of a token
can be told from the token but for the white space around it, and that white space changes nothing. -/
theorem parse_inverts (text : String) :
    (∀ jwe, parse text = .ok jwe ↔ Compact (Text.dotted (Text.trim text)) jwe) ∧
    (∀ flaw, parse text = .error flaw ↔ Refused (Text.dotted (Text.trim text)) flaw) ∧
    (∀ jwe, parse text = .ok jwe →
      Text.trim text = Text.joinDotted [jwe.protectedText, Base64Url.encode jwe.encryptedKey,
        Base64Url.encode jwe.content.iv, Base64Url.encode jwe.content.ciphertext,
        Base64Url.encode jwe.content.tag]) ∧
    (∀ other jwe, parse text = .ok jwe → parse other = .ok jwe → Text.trim text = Text.trim other) ∧
    ∀ front back : String, (∀ c ∈ front.toList, Text.isBlank c = true) →
      (∀ c ∈ back.toList, Text.isBlank c = true) →
      parse (front ++ text ++ back) = parse text ∧
      ∀ key draws, ((parse (front ++ text ++ back)).mapError Error.invalidToken >>= fun jwe => jwe.decrypt key draws) =
        ((parse text).mapError Error.invalidToken >>= fun jwe => jwe.decrypt key draws) := by
  refine ⟨?accepted, ?refused, ?written, ?injective, ?surrounded⟩
  case accepted => exact fun jwe => parse_eq_ok_iff_compact
  case refused => exact fun flaw => parse_eq_error
  case written => exact fun jwe => trim_eq_of_parse
  case injective =>
      intro other jwe parsed also
      rw [trim_eq_of_parse parsed, trim_eq_of_parse also]
  case surrounded =>
      intro front back before after
      have same : parse (front ++ text ++ back) = parse text := parse_surround before after
      refine ⟨same, ?_⟩
      intro key draws
      rw [same]

/-- A header that names an algorithm and an encryption. -/
def directSegment : String := "eyJhbGciOiJkaXIiLCJlbmMiOiJBMTI4R0NNIn0"

/-- A token for a shared key, and one whose ciphertext leaves a bit over that should be zero. -/
theorem parse_inverts_strictly :
    ∃ jwe, parse (directSegment ++ "..AQ.Ag.Aw") = .ok jwe ∧
      jwe.header = { alg := "dir", enc := some "A128GCM" } ∧ jwe.content = ⟨[1], [2], [3]⟩ ∧
      parse ("\t " ++ (directSegment ++ "..AQ.Ag.Aw") ++ "\n") = .ok jwe ∧
      Text.trim (directSegment ++ "..AQ.Ag.Aw") = Text.joinDotted [jwe.protectedText, "", "AQ", "Ag", "Aw"] ∧
      parse (directSegment ++ "..AQ.Ah.Aw") = .error (.notBase64 "ciphertext") := by
  have spelled : Header.Spelled directSegment { alg := "dir", enc := some "A128GCM" } :=
    ⟨Bytes.ofText "\x7b\"alg\":\"dir\",\"enc\":\"A128GCM\"\x7d", by decide +kernel, ok_of_toOption (by decide +kernel)⟩
  have cut : Text.dotted (Text.trim (directSegment ++ "..AQ.Ag.Aw")) = [directSegment, "", "AQ", "Ag", "Aw"] := by
    decide +kernel
  have cutToo : Text.dotted (Text.trim (directSegment ++ "..AQ.Ah.Aw")) = [directSegment, "", "AQ", "Ah", "Aw"] := by
    decide +kernel
  have foreign : ∀ bytes, "Ah" ≠ Base64Url.encode bytes := Base64Url.decode?_eq_none_iff.mp (by decide)
  obtain ⟨accepted, _, written, _, surrounded⟩ := parse_inverts (directSegment ++ "..AQ.Ag.Aw")
  have parsed := (accepted _).mpr (cut ▸ Compact.mk spelled rfl (Option.some_ne_none _) [] ⟨[1], [2], [3]⟩)
  obtain ⟨same, _⟩ := surrounded "\t " "\n" (List.all_eq_true.mp (by decide)) (List.all_eq_true.mp (by decide))
  obtain ⟨_, refused, _⟩ := parse_inverts (directSegment ++ "..AQ.Ah.Aw")
  refine ⟨_, parsed, rfl, rfl, same.trans parsed, written _ parsed, ?_⟩
  refine (refused _).mpr (cutToo ▸ .part spelled rfl (Option.some_ne_none _) ?_)
  exact .later [] (.later [1] (.here foreign))

end WebToken.Jwe
