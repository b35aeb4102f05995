import WebToken.Jws

/-!
Signed tokens as received: which parts a text carries, in either form, and which token they make.
-/

namespace WebToken.Jws

/-- The parts of a signed token as they were received. -/
structure Parts where
  protectedText : String
  unprotectedHeader : Header
  payload : String
  signature : String
  deriving DecidableEq

/-- A text carries its three segments, or the members of the only signature of its document. -/
inductive Carries (text : String) : Parts → Prop
  | segments {protectedText payload signature : String}
      (plain : looksLikeDocument (Text.trim text) = false)
      (cut : Text.dotted (Text.trim text) = [protectedText, payload, signature]) :
      Carries text ⟨protectedText, {}, payload, signature⟩
  | members {document : Document} {entry : Entry}
      (braced : looksLikeDocument (Text.trim text) = true)
      (read : Json.read Document.read (Bytes.ofText (Text.trim text)) = .ok document)
      (only : document.entry = .ok entry) :
      Carries text ⟨entry.protectedText.getD "", entry.unprotectedHeader.getD {}, document.payload,
        entry.signature⟩

/-- What the parts of a token stand for. The text that is signed is kept as received. -/
structure Parts.Make (parts : Parts) (jws : Jws) : Prop where
  header : mergedHeader parts.protectedText parts.unprotectedHeader = .ok jws.header
  signingInput : jws.signingInput = Bytes.ofText (inputText parts.protectedText parts.payload)
  payload : Base64Url.decode? parts.payload = some jws.payload
  signature : Base64Url.decode? parts.signature = some jws.signature

theorem decode_ne_empty {segment : String} {header : Header} (decoded : Header.decode segment = .ok header) :
    segment ≠ "" := by
  rintro rfl
  cases decoded

theorem mergedHeader_of_decode {protectedText : String} {unprotectedHeader given : Header}
    (decoded : Header.decode protectedText = .ok given) :
    mergedHeader protectedText unprotectedHeader = .ok (given.merge unprotectedHeader) := by
  rw [mergedHeader, if_neg (by simpa using decode_ne_empty decoded), decoded]
  rfl

theorem ofParts_eq_ok {parts : Parts} {jws : Jws} :
    ofParts parts.protectedText parts.unprotectedHeader parts.payload parts.signature = .ok jws ↔
      parts.Make jws := by
  constructor
  · intro made
    obtain ⟨header, merged, made⟩ := bind_eq_ok.mp made
    obtain ⟨payload, payloadRead, made⟩ := bind_eq_ok.mp made
    obtain ⟨signature, signatureRead, made⟩ := bind_eq_ok.mp made
    cases made
    exact ⟨merged, rfl, require_eq_ok.mp payloadRead, require_eq_ok.mp signatureRead⟩
  · intro given
    obtain ⟨merged, input, payload, signature⟩ := given
    obtain ⟨header, signingInput, payloadBytes, signatureBytes⟩ := jws
    cases input
    rw [ofParts, merged, partBytes, payload, partBytes, signature]
    rfl

/-- The parts of three segments. -/
def Parts.ofSegments : List String → Except TokenFlaw Parts
  | [protectedText, payload, signature] => .ok ⟨protectedText, {}, payload, signature⟩
  | _ => .error .signedSegments

def Parts.ofDocument (text : String) : Except TokenFlaw Parts := do
  let document ← (Json.read Document.read (Bytes.ofText text)).mapError fun _ => .jsonMalformed
  let entry ← document.entry
  return ⟨entry.protectedText.getD "", entry.unprotectedHeader.getD {}, document.payload, entry.signature⟩

def Parts.ofText (text : String) : Except TokenFlaw Parts :=
  let text := Text.trim text
  if looksLikeDocument text then ofDocument text else ofSegments (Text.dotted text)

variable {text : String} {parts : Parts} {jws : Jws}

theorem Parts.ofSegments_eq_ok {segments : List String} :
    ofSegments segments = .ok parts ↔
      ∃ protectedText payload signature, segments = [protectedText, payload, signature] ∧
        parts = ⟨protectedText, {}, payload, signature⟩ := by
  constructor
  · intro found
    unfold ofSegments at found
    split at found
    · cases found
      exact ⟨_, _, _, rfl, rfl⟩
    · cases found
  · rintro ⟨protectedText, payload, signature, rfl, rfl⟩
    rfl

theorem Parts.ofDocument_eq_ok :
    ofDocument text = .ok parts ↔
      ∃ document entry, Json.read Document.read (Bytes.ofText text) = .ok document ∧
        document.entry = .ok entry ∧
        parts = ⟨entry.protectedText.getD "", entry.unprotectedHeader.getD {}, document.payload,
          entry.signature⟩ := by
  simp only [ofDocument, bind_eq_ok, mapError_eq_ok]
  constructor
  · rintro ⟨document, read, entry, only, found⟩
    exact ⟨document, entry, read, only, (Except.ok.inj found).symm⟩
  · rintro ⟨document, entry, read, only, rfl⟩
    exact ⟨document, read, entry, only, rfl⟩

theorem ofText_eq_ok : Parts.ofText text = .ok parts ↔ Carries text parts := by
  unfold Parts.ofText
  dsimp only
  split
  case isTrue braced =>
      rw [Parts.ofDocument_eq_ok]
      constructor
      · rintro ⟨document, entry, read, only, rfl⟩
        exact .members braced read only
      · rintro (⟨plain, _⟩ | ⟨_, read, only⟩)
        · cases plain.symm.trans braced
        · exact ⟨_, _, read, only, rfl⟩
  case isFalse plain =>
      rw [Parts.ofSegments_eq_ok]
      constructor
      · rintro ⟨protectedText, payload, signature, cut, rfl⟩
        exact .segments (Bool.eq_false_iff.mpr plain) cut
      · rintro (⟨_, cut⟩ | ⟨braced, _, _⟩)
        · exact ⟨_, _, _, cut, rfl⟩
        · exact absurd braced plain

/-- A token is read in two steps: its text gives the parts, and they make the token. -/
theorem parse_eq_bind :
    parse text = Parts.ofText text >>= fun parts =>
      ofParts parts.protectedText parts.unprotectedHeader parts.payload parts.signature := by
  unfold parse Parts.ofText
  dsimp only
  split
  · rw [ofDocument, Parts.ofDocument, bind_assoc]
    congr 1
    funext document
    rw [bind_assoc]
    rfl
  · unfold ofCompact
    rcases Text.dotted (Text.trim text) with _ | ⟨_, _ | ⟨_, _ | ⟨_, _ | _⟩⟩⟩ <;> rfl

theorem parse_of_carries (carried : Carries text parts) :
    parse text = ofParts parts.protectedText parts.unprotectedHeader parts.payload parts.signature := by
  rw [parse_eq_bind, ofText_eq_ok.mpr carried, ok_bind]

theorem parse_eq_ok : parse text = .ok jws ↔ ∃ parts, Carries text parts ∧ parts.Make jws := by
  simp only [parse_eq_bind, bind_eq_ok, ofText_eq_ok, ofParts_eq_ok]

end WebToken.Jws
