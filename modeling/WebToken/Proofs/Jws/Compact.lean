import WebToken.Proofs.Jws.Refusal
import WebToken.Proofs.Jws.RoundTrip

/-!
The written form of signed tokens. A text that is no document is read as a token exactly when, without the
white space around it, it is the three segments that the token is written as, so a token has one such form.
-/

namespace WebToken.Jws

/-- The first segment of a signed token. An empty one stands for the blank header. -/
inductive Opening : String → Header → Prop
  | blank : Opening "" {}
  | header {first : String} {header : Header} (spelled : Header.Spelled first header)
      (uncritical : header.crit = none) :
      Opening first header

/-- The segments that a token is written as. -/
inductive Compact : List String → Jws → Prop
  | mk {first : String} {header : Header} (opening : Opening first header) (payload signature : Bytes) :
      Compact [first, Base64Url.encode payload, Base64Url.encode signature]
        ⟨header, Bytes.ofText (inputText first (Base64Url.encode payload)), payload, signature⟩

/-- Why segments are refused: for their number, or as the parts of a token without an unprotected header. -/
inductive Refused : List String → TokenFlaw → Prop
  | count {segments : List String} (unlike : segments.length ≠ 3) : Refused segments .signedSegments
  | parts {first payload signature : String} {flaw : TokenFlaw}
      (refused : Parts.Refused ⟨first, {}, payload, signature⟩ flaw) : Refused [first, payload, signature] flaw

variable {text : String} {segments : List String} {first : String} {header : Header} {jws : Jws} {flaw : TokenFlaw}

theorem mergedHeader_blank_eq_ok : mergedHeader first {} = .ok header ↔ Opening first header := by
  by_cases empty : first = ""
  · subst empty
    constructor
    · intro merged
      obtain rfl := Except.ok.inj merged
      exact .blank
    · intro opening
      cases opening with
      | blank => rfl
      | header spelled => exact absurd spelled not_spelled_empty
  · constructor
    · intro merged
      rw [mergedHeader, if_neg (by simpa using empty)] at merged
      obtain ⟨given, decoded, same⟩ := map_eq_ok.mp merged
      obtain rfl : given = header := (merge_blank given).symm.trans same
      obtain ⟨spelled, uncritical⟩ := Header.decode_eq_ok.mp decoded
      exact .header spelled uncritical
    · intro opening
      cases opening with
      | blank => exact absurd rfl empty
      | header spelled uncritical =>
          rw [mergedHeader_of_decode (Header.decode_eq_ok.mpr ⟨spelled, uncritical⟩), merge_blank]

theorem make_iff_compact {payload signature : String} :
    Parts.Make ⟨first, {}, payload, signature⟩ jws ↔ Compact [first, payload, signature] jws := by
  constructor
  · rintro ⟨merged, input, payloadRead, signatureRead⟩
    obtain ⟨header, signingInput, payloadBytes, signatureBytes⟩ := jws
    dsimp only at merged input payloadRead signatureRead
    rw [Base64Url.decode?_eq_some_iff] at payloadRead signatureRead
    subst payloadRead signatureRead input
    exact .mk (mergedHeader_blank_eq_ok.mp merged) payloadBytes signatureBytes
  · rintro ⟨opening, payload, signature⟩
    constructor
    · exact mergedHeader_blank_eq_ok.mpr opening
    · rfl
    · exact Base64Url.decode?_encode payload
    · exact Base64Url.decode?_encode signature

theorem parse_of_plain (plain : looksLikeDocument (Text.trim text) = false) :
    parse text = Parts.ofSegments (Text.dotted (Text.trim text)) >>= fun parts =>
      ofParts parts.protectedText parts.unprotectedHeader parts.payload parts.signature := by
  rw [parse_eq_bind, Parts.ofText]
  simp only [plain, Bool.false_eq_true, if_false]

theorem parse_eq_ok_iff_compact (plain : looksLikeDocument (Text.trim text) = false) :
    parse text = .ok jws ↔ Compact (Text.dotted (Text.trim text)) jws := by
  rw [parse_of_plain plain]
  generalize Text.dotted (Text.trim text) = segments
  simp only [bind_eq_ok, Parts.ofSegments_eq_ok, ofParts_eq_ok]
  constructor
  · rintro ⟨_, ⟨first, payload, signature, rfl, rfl⟩, made⟩
    exact make_iff_compact.mp made
  · intro written
    cases written with
    | mk opening payload signature =>
        exact ⟨_, ⟨_, _, _, rfl, rfl⟩, make_iff_compact.mpr (.mk opening payload signature)⟩

theorem Parts.ofSegments_eq_error :
    ofSegments segments = .error flaw ↔ segments.length ≠ 3 ∧ .signedSegments = flaw := by
  unfold ofSegments
  split
  · exact ⟨nofun, fun unlike => absurd rfl unlike.1⟩
  · rename_i other
    constructor
    · intro refused
      refine ⟨fun three => ?_, Except.error.inj refused⟩
      match segments, three with
      | [_, _, _], _ => exact other _ _ _ rfl
    · rintro ⟨_, rfl⟩
      rfl

theorem parse_eq_error_iff_refused (plain : looksLikeDocument (Text.trim text) = false) :
    parse text = .error flaw ↔ Refused (Text.dotted (Text.trim text)) flaw := by
  rw [parse_of_plain plain]
  generalize Text.dotted (Text.trim text) = segments
  simp only [bind_eq_error, Parts.ofSegments_eq_error, Parts.ofSegments_eq_ok, ofParts_eq_error]
  constructor
  · rintro (⟨unlike, rfl⟩ | ⟨_, ⟨first, payload, signature, rfl, rfl⟩, refused⟩)
    · exact .count unlike
    · exact .parts refused
  · intro refused
    cases refused with
    | count unlike => exact Or.inl ⟨unlike, rfl⟩
    | parts refused => exact Or.inr ⟨_, ⟨_, _, _, rfl, rfl⟩, refused⟩

/-- The signed text is the first two of the segments, and the signature is the last one. -/
theorem Compact.joined (written : Compact segments jws) :
    Bytes.ofText (Text.joinDotted segments) =
      jws.signingInput ++ Bytes.ofText ("." ++ Base64Url.encode jws.signature) := by
  cases written with
  | mk opening payload signature =>
      rw [joinDotted_inputText, String.append_assoc, Bytes.ofText, String.toList_append, Bytes.ofChars_append]
      rfl

theorem Compact.segments_eq (written : Compact segments jws) :
    ∃ first, segments = [first, Base64Url.encode jws.payload, Base64Url.encode jws.signature] := by
  cases written
  exact ⟨_, rfl⟩

theorem ofText_trim_of_parse (plain : looksLikeDocument (Text.trim text) = false) (parsed : parse text = .ok jws) :
    Bytes.ofText (Text.trim text) = jws.signingInput ++ Bytes.ofText ("." ++ Base64Url.encode jws.signature) := by
  rw [← Text.joinDotted_dotted (Text.trim text)]
  exact ((parse_eq_ok_iff_compact plain).mp parsed).joined

/-- Signed tokens have one written form with segments. A text that is no document is read as a token exactly
when its segments are those that the token is written as, and refused for the first thing that is wrong with
them. What was signed, a dot and the signature are the text again but for the white space around it. -/
theorem parse_inverts_plain (text : String) (plain : looksLikeDocument (Text.trim text) = false) :
    (∀ jws, parse text = .ok jws ↔ Compact (Text.dotted (Text.trim text)) jws) ∧
    (∀ flaw, parse text = .error flaw ↔ Refused (Text.dotted (Text.trim text)) flaw) ∧
    (∀ jws, parse text = .ok jws →
      Bytes.ofText (Text.trim text) = jws.signingInput ++ Bytes.ofText ("." ++ Base64Url.encode jws.signature) ∧
      ∃ first, Text.dotted (Text.trim text) =
        [first, Base64Url.encode jws.payload, Base64Url.encode jws.signature]) ∧
    ∀ other jws, looksLikeDocument (Text.trim other) = false → parse text = .ok jws → parse other = .ok jws →
      Text.trim text = Text.trim other := by
  refine ⟨?accepted, ?refused, ?written, ?injective⟩
  case accepted => exact fun jws => parse_eq_ok_iff_compact plain
  case refused => exact fun flaw => parse_eq_error_iff_refused plain
  case written =>
      intro jws parsed
      have compact : Compact (Text.dotted (Text.trim text)) jws := (parse_eq_ok_iff_compact plain).mp parsed
      exact ⟨ofText_trim_of_parse plain parsed, compact.segments_eq⟩
  case injective =>
      intro other jws alsoPlain parsed also
      have bytes : Bytes.ofText (Text.trim text) = Bytes.ofText (Text.trim other) := by
        rw [ofText_trim_of_parse plain parsed, ofText_trim_of_parse alsoPlain also]
      exact Utf8.ofText_injective bytes

/-- A header that names no algorithm. -/
def unsecuredSegment : String := "eyJhbGciOiJub25lIn0"

/-- A token with an empty payload, and one whose signature leaves a bit over that should be zero. -/
theorem parse_inverts_plain_unsecured :
    ∃ jws, parse (" " ++ unsecuredSegment ++ "..AQ\n") = .ok jws ∧
      jws.header = { alg := "none" } ∧ jws.payload = [] ∧
      Bytes.ofText (Text.trim (" " ++ unsecuredSegment ++ "..AQ\n")) = jws.signingInput ++ Bytes.ofText ".AQ" ∧
      parse (unsecuredSegment ++ "..AQ") = .ok jws ∧
      parse (unsecuredSegment ++ "..AR") = .error (.notBase64 "signature") ∧
      parse (unsecuredSegment ++ "..AQ.") = .error .signedSegments := by
  have spelled : Header.Spelled unsecuredSegment { alg := "none" } :=
    ⟨Bytes.ofText "\x7b\"alg\":\"none\"\x7d", by decide +kernel, ok_of_toOption (by decide +kernel)⟩
  have opening : Opening unsecuredSegment { alg := "none" } := .header spelled rfl
  have cut : Text.dotted (Text.trim (" " ++ unsecuredSegment ++ "..AQ\n")) = [unsecuredSegment, "", "AQ"] := by
    decide +kernel
  have cutPlain : Text.dotted (Text.trim (unsecuredSegment ++ "..AQ")) = [unsecuredSegment, "", "AQ"] := by
    decide +kernel
  have cutLoose : Text.dotted (Text.trim (unsecuredSegment ++ "..AR")) = [unsecuredSegment, "", "AR"] := by
    decide +kernel
  have foreign : ∀ bytes, "AR" ≠ Base64Url.encode bytes := Base64Url.decode?_eq_none_iff.mp (by decide)
  let loose : Parts := ⟨unsecuredSegment, {}, "", "AR"⟩
  have headed : ∀ flaw, ¬loose.HeaderRefused flaw :=
    exists_mergedHeader_iff.mp ⟨_, mergedHeader_blank_eq_ok.mpr opening⟩
  obtain ⟨accepted, _, written, _⟩ := parse_inverts_plain (" " ++ unsecuredSegment ++ "..AQ\n") (by decide +kernel)
  obtain ⟨acceptedPlain, _⟩ := parse_inverts_plain (unsecuredSegment ++ "..AQ") (by decide +kernel)
  obtain ⟨_, refusedLoose, _⟩ := parse_inverts_plain (unsecuredSegment ++ "..AR") (by decide +kernel)
  obtain ⟨_, refusedLong, _⟩ := parse_inverts_plain (unsecuredSegment ++ "..AQ.") (by decide +kernel)
  have parsed := (accepted _).mpr (cut ▸ Compact.mk opening [] [1])
  obtain ⟨spelledAgain, _⟩ := written _ parsed
  refine ⟨_, parsed, rfl, rfl, spelledAgain, ?plain, ?loose, ?long⟩
  case plain => exact (acceptedPlain _).mpr (cutPlain ▸ Compact.mk opening [] [1])
  case loose => exact (refusedLoose _).mpr (cutLoose ▸ .parts (.part headed (.later [] (.here foreign))))
  case long => exact (refusedLong _).mpr (.count (by decide +kernel))

end WebToken.Jws
