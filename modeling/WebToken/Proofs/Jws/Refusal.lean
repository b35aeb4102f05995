import WebToken.Proofs.Header
import WebToken.Proofs.Jws.Parsing

/-!
Signed tokens that are refused although their text carries the parts of one: for their headers, or for
the first part that is no base64url text.
-/

namespace WebToken

theorem not_spelled_empty {header : Header} : ¬Header.Spelled "" header := by
  rintro ⟨bytes, written, read⟩
  have nothing : bytes = [] := Base64Url.encode_injective written.symm
  subst nothing
  cases read

theorem exists_notBase64_of_partRefused {parts : List (String × String)} {flaw : TokenFlaw}
    (refused : PartRefused parts flaw) : ∃ name, flaw = .notBase64 name := by
  induction refused with
  | here foreign => exact ⟨_, rfl⟩
  | later bytes refused ih => exact ih

namespace Jws

variable {parts : Parts} {flaw : TokenFlaw} {text : String} {names : List String}

/-- Why the headers of a token are refused. What the unprotected header calls critical is seen only where
nothing is protected. -/
inductive Parts.HeaderRefused (parts : Parts) : TokenFlaw → Prop
  | unprotectedCritical {names : List String} (blank : parts.protectedText = "")
      (demanded : parts.unprotectedHeader.crit = some names) : HeaderRefused parts (.critical names)
  | protectedSegment {flaw : TokenFlaw} (nonempty : parts.protectedText ≠ "")
      (refused : Header.Refused parts.protectedText flaw) : HeaderRefused parts flaw

/-- Why the parts of a token are refused. -/
inductive Parts.Refused (parts : Parts) : TokenFlaw → Prop
  | header {flaw : TokenFlaw} (refused : parts.HeaderRefused flaw) : Refused parts flaw
  | part {flaw : TokenFlaw} (headed : ∀ flaw, ¬parts.HeaderRefused flaw)
      (refused : PartRefused [("payload", parts.payload), ("signature", parts.signature)] flaw) : Refused parts flaw

theorem mergedHeader_eq_error :
    mergedHeader parts.protectedText parts.unprotectedHeader = .error flaw ↔ parts.HeaderRefused flaw := by
  unfold mergedHeader
  by_cases blank : parts.protectedText = ""
  · rw [if_pos (String.isEmpty_iff.mpr blank)]
    constructor
    · intro refused
      obtain ⟨names, demanded, rfl⟩ := Header.checkCritical_eq_error.mp (map_eq_error.mp refused)
      exact .unprotectedCritical blank demanded
    · intro refused
      cases refused with
      | unprotectedCritical _ demanded => exact map_eq_error.mpr (Header.checkCritical_eq_error.mpr ⟨_, demanded, rfl⟩)
      | protectedSegment nonempty => exact absurd blank nonempty
  · rw [if_neg (by simpa using blank)]
    constructor
    · exact fun refused => .protectedSegment blank (Header.decode_eq_error.mp (map_eq_error.mp refused))
    · intro refused
      cases refused with
      | unprotectedCritical empty => exact absurd empty blank
      | protectedSegment _ refused => exact map_eq_error.mpr (Header.decode_eq_error.mpr refused)

theorem exists_mergedHeader_iff :
    (∃ header, mergedHeader parts.protectedText parts.unprotectedHeader = .ok header) ↔
      ∀ flaw, ¬parts.HeaderRefused flaw := by
  simp only [← mergedHeader_eq_error]
  constructor
  · rintro ⟨header, merged⟩ flaw refused
    cases merged.symm.trans refused
  · intro headed
    cases merged : mergedHeader parts.protectedText parts.unprotectedHeader with
    | error found => exact absurd merged (headed found)
    | ok header => exact ⟨header, rfl⟩

theorem ofParts_eq_error :
    ofParts parts.protectedText parts.unprotectedHeader parts.payload parts.signature = .error flaw ↔
      parts.Refused flaw := by
  have read (header : Header) : (do
      let payloadBytes ← partBytes "payload" parts.payload
      let signatureBytes ← partBytes "signature" parts.signature
      return (⟨header, Bytes.ofText (inputText parts.protectedText parts.payload), payloadBytes, signatureBytes⟩ : Jws))
        = .error flaw ↔ PartRefused [("payload", parts.payload), ("signature", parts.signature)] flaw := by
    refine partBytes_bind_eq_error fun payloadBytes => partBytes_bind_eq_error fun signatureBytes => ?_
    exact ⟨nofun, nofun⟩
  rw [ofParts, bind_eq_error, mergedHeader_eq_error]
  constructor
  · rintro (refused | ⟨header, merged, refused⟩)
    · exact .header refused
    · exact .part (exists_mergedHeader_iff.mp ⟨header, merged⟩) ((read header).mp refused)
  · intro refused
    cases refused with
    | header refused => exact Or.inl refused
    | part headed refused =>
        obtain ⟨header, merged⟩ := exists_mergedHeader_iff.mpr headed
        exact Or.inr ⟨header, merged, (read header).mpr refused⟩

theorem parse_eq_error (carried : Carries text parts) : parse text = .error flaw ↔ parts.Refused flaw := by
  rw [parse_of_carries carried, ofParts_eq_error]

end Jws

end WebToken
