import WebToken.Proofs.Jwe.Compact
import WebToken.Proofs.Jws.Refusal

/-!
Critical extensions. None is understood, so a token is refused for those that its protected header calls
critical, or its unprotected one where nothing is protected.
-/

namespace WebToken

namespace Jws

/-- A header of the parts calls extensions critical. -/
inductive Parts.Demands (parts : Parts) (names : List String) : Prop
  | ofProtected {header : Header} (spelled : Header.Spelled parts.protectedText header)
      (demanded : header.crit = some names) : Demands parts names
  | ofUnprotected (demanded : parts.unprotectedHeader.crit = some names) : Demands parts names

variable {parts : Parts} {names : List String}

theorem refused_critical_iff :
    parts.Refused (.critical names) ↔
      (∃ header, Header.Spelled parts.protectedText header ∧ header.crit = some names) ∨
        parts.protectedText = "" ∧ parts.unprotectedHeader.crit = some names := by
  constructor
  · intro refused
    cases refused with
    | header refused =>
        cases refused with
        | unprotectedCritical blank demanded => exact Or.inr ⟨blank, demanded⟩
        | protectedSegment _ refused => exact Or.inl (Header.refused_critical_iff.mp refused)
    | part _ refused =>
        obtain ⟨_, unlike⟩ := exists_notBase64_of_partRefused refused
        cases unlike
  · rintro (⟨header, spelled, demanded⟩ | ⟨blank, demanded⟩)
    · have nonempty : parts.protectedText ≠ "" := fun empty => not_spelled_empty (empty ▸ spelled)
      exact .header (.protectedSegment nonempty (.critical spelled demanded))
    · exact .header (.unprotectedCritical blank demanded)

end Jws

theorem Jwe.refused_critical_iff {first encryptedKey iv ciphertext tag : String} {names : List String} :
    Jwe.Refused [first, encryptedKey, iv, ciphertext, tag] (.critical names) ↔
      ∃ header, Header.Spelled first header ∧ header.crit = some names := by
  constructor
  · intro refused
    cases refused with
    | header refused => exact Header.refused_critical_iff.mp refused
    | part _ _ _ refused =>
        obtain ⟨_, unlike⟩ := exists_notBase64_of_partRefused refused
        cases unlike
  · exact fun demanded => .header (Header.refused_critical_iff.mpr demanded)

namespace Token

/-- A signed token is refused exactly for the extensions that its protected header calls critical, or the
unprotected one where nothing is protected, and an encrypted token for those of its header. So no header
that calls an extension critical is accepted, except an unprotected one beside a protected one. -/
theorem parse_critical (text : String) :
    (∀ parts, Jws.Carries text parts →
      (∀ names, Jws.parse text = .error (.critical names) ↔
        (∃ header, Header.Spelled parts.protectedText header ∧ header.crit = some names) ∨
          parts.protectedText = "" ∧ parts.unprotectedHeader.crit = some names) ∧
      (parts.protectedText = "" ∨ parts.unprotectedHeader.crit = none →
        ∀ names, parts.Demands names → Jws.parse text = .error (.critical names)) ∧
      ∀ jws names, Jws.parse text = .ok jws → parts.Demands names →
        parts.protectedText ≠ "" ∧ parts.unprotectedHeader.crit = some names) ∧
    ∀ first encryptedKey iv ciphertext tag : String,
      Text.dotted (Text.trim text) = [first, encryptedKey, iv, ciphertext, tag] → ∀ names,
      (Jwe.parse text = .error (.critical names) ↔
        ∃ header, Header.Spelled first header ∧ header.crit = some names) := by
  refine ⟨?_, ?_⟩
  · intro parts carried
    have refused (names : List String) : Jws.parse text = .error (.critical names) ↔
        (∃ header, Header.Spelled parts.protectedText header ∧ header.crit = some names) ∨
          parts.protectedText = "" ∧ parts.unprotectedHeader.crit = some names := by
      rw [Jws.parse_eq_error carried, Jws.refused_critical_iff]
    have inProtected {header : Header} {names : List String} (spelled : Header.Spelled parts.protectedText header)
        (demanded : header.crit = some names) : Jws.parse text = .error (.critical names) :=
      (refused names).mpr (Or.inl ⟨header, spelled, demanded⟩)
    have alone {names : List String} (blank : parts.protectedText = "")
        (demanded : parts.unprotectedHeader.crit = some names) : Jws.parse text = .error (.critical names) :=
      (refused names).mpr (Or.inr ⟨blank, demanded⟩)
    refine ⟨refused, ?seen, ?accepted⟩
    case seen =>
        intro seen names demands
        cases demands with
        | ofProtected spelled demanded => exact inProtected spelled demanded
        | ofUnprotected demanded =>
            rcases seen with blank | uncritical
            · exact alone blank demanded
            · cases uncritical.symm.trans demanded
    case accepted =>
        intro jws names parsed demands
        cases demands with
        | ofProtected spelled demanded => cases parsed.symm.trans (inProtected spelled demanded)
        | ofUnprotected demanded =>
            refine ⟨?_, demanded⟩
            intro blank
            cases parsed.symm.trans (alone blank demanded)
  · intro first encryptedKey iv ciphertext tag cut names
    rw [Jwe.parse_eq_error, cut, Jwe.refused_critical_iff]

/-- A document whose unprotected header calls `exp` critical, with or without a protected header beside it. -/
def demandingDocument (beside : String) : String :=
  "\x7b\"payload\":\"e30\"," ++ beside ++ "\"header\":\x7b\"crit\":[\"exp\"]\x7d,\"signature\":\"AA\"\x7d"

theorem exists_carries_of_summary (text protectedText : String) (names : Option (List String))
    (found : ((Jws.Parts.ofText text).toOption.map fun parts => (parts.protectedText, parts.unprotectedHeader.crit)) =
      some (protectedText, names)) :
    ∃ parts, Jws.Carries text parts ∧ parts.protectedText = protectedText ∧ parts.unprotectedHeader.crit = names := by
  obtain ⟨parts, present, same⟩ := Option.map_eq_some_iff.mp found
  obtain ⟨rfl, rfl⟩ := Prod.mk.inj same
  exact ⟨parts, Jws.ofText_eq_ok.mp (ok_of_toOption present), rfl, rfl⟩

/-- Without a protected header the extension is refused, and so it is in the header of an encrypted token. -/
theorem parse_critical_alone :
    Jws.parse (demandingDocument "") = .error (.critical ["exp"]) ∧
      Jwe.parse "eyJjcml0IjpbImV4cCJdfQ...." = .error (.critical ["exp"]) := by
  obtain ⟨parts, carried, blank, demanded⟩ := exists_carries_of_summary (demandingDocument "") ""
    (some ["exp"]) (by decide +kernel)
  have spelled : Header.Spelled "eyJjcml0IjpbImV4cCJdfQ" { crit := some ["exp"] } :=
    ⟨Bytes.ofText "\x7b\"crit\":[\"exp\"]\x7d", by decide +kernel, ok_of_toOption (by decide +kernel)⟩
  have cut : Text.dotted (Text.trim "eyJjcml0IjpbImV4cCJdfQ....") = ["eyJjcml0IjpbImV4cCJdfQ", "", "", "", ""] := by
    decide +kernel
  obtain ⟨signed, _⟩ := parse_critical (demandingDocument "")
  obtain ⟨_, encrypted⟩ := parse_critical "eyJjcml0IjpbImV4cCJdfQ...."
  constructor
  · obtain ⟨_, refused, _⟩ := signed parts carried
    exact refused (Or.inl blank) _ (.ofUnprotected demanded)
  · exact (encrypted _ _ _ _ _ cut _).mpr ⟨_, spelled, rfl⟩

/-- Beside a protected header the extension is passed over. -/
theorem parse_critical_unprotected :
    ∃ parts jws, Jws.Carries (demandingDocument "\"protected\":\"eyJhbGciOiJIUzI1NiJ9\",") parts ∧
      parts.Demands ["exp"] ∧
      Jws.parse (demandingDocument "\"protected\":\"eyJhbGciOiJIUzI1NiJ9\",") = .ok jws := by
  obtain ⟨parts, carried, _, demanded⟩ := exists_carries_of_summary
    (demandingDocument "\"protected\":\"eyJhbGciOiJIUzI1NiJ9\",") "eyJhbGciOiJIUzI1NiJ9" (some ["exp"])
    (by decide +kernel)
  have parsed : Jws.parse (demandingDocument "\"protected\":\"eyJhbGciOiJIUzI1NiJ9\",") =
      .ok ⟨{ alg := "HS256" }, Bytes.ofText "eyJhbGciOiJIUzI1NiJ9.e30", Bytes.ofText "\x7b\x7d", [0]⟩ :=
    ok_of_toOption (by decide +kernel)
  exact ⟨parts, _, carried, .ofUnprotected demanded, parsed⟩

end Token

end WebToken
