import WebToken.Proofs.Jws.Compact

/-!
Bytes that look like a signed token: three segments of which the first spells a header that names an algorithm. They
are one exactly if the other two segments can be read as well, at which nobody looks.
-/

namespace WebToken.Jws

/-- A segment spells a header that names an algorithm and calls nothing critical. -/
structure Naming (first : String) (header : Header) : Prop where
  spelled : Header.Spelled first header
  uncritical : header.crit = none
  named : header.alg ≠ ""

variable {bytes : Bytes} {text first payload signature : String} {header : Header} {jws : Jws} {flaw : TokenFlaw}

theorem Naming.decode (naming : Naming first header) : Header.decode first = .ok header :=
  Header.decode_eq_ok.mpr ⟨naming.spelled, naming.uncritical⟩

theorem Naming.opening (naming : Naming first header) : Opening first header :=
  .header naming.spelled naming.uncritical

theorem Naming.unique {other : Header} (naming : Naming first header) (opening : Opening first other) :
    other = header :=
  Except.ok.inj ((mergedHeader_blank_eq_ok.mpr opening).symm.trans (mergedHeader_blank_eq_ok.mpr naming.opening))

theorem isCompact_ofText : isCompact (Bytes.ofText text) = true ↔
    ∃ first payload signature header, Text.dotted text = [first, payload, signature] ∧ Naming first header := by
  rw [isCompact, Utf8.decode?_eq_some_iff.mpr rfl]
  dsimp only
  constructor
  · intro looks
    split at looks
    · rename_i cut
      split at looks
      · rename_i header decoded
        obtain ⟨spelled, uncritical⟩ := Header.decode_eq_ok.mp decoded
        exact ⟨_, _, _, header, cut, spelled, uncritical, by simpa using looks⟩
      · cases looks
    · cases looks
  · rintro ⟨first, payload, signature, header, cut, naming⟩
    rw [cut]
    simpa [naming.decode] using naming.named

theorem isCompact_of_foreign (foreign : ∀ text, bytes ≠ Bytes.ofText text) : isCompact bytes = false := by
  cases read : Utf8.decode? bytes with
  | none => rw [isCompact, read]
  | some text => exact absurd (Utf8.decode?_eq_some_iff.mp read) (foreign text)

theorem naming_of_opening (opening : Opening first header) (named : header.alg ≠ "") : Naming first header := by
  cases opening with
  | blank => exact absurd rfl named
  | header spelled uncritical => exact ⟨spelled, uncritical, named⟩

/-- A text is a token with an algorithm if it looks like one and the segments behind the header can be read. -/
theorem exists_parse_iff (plain : looksLikeDocument (Text.trim text) = false) :
    (∃ jws, parse text = .ok jws ∧ jws.header.alg ≠ "") ↔ isCompact (Bytes.ofText (Text.trim text)) = true ∧
      ∃ first payload signature, Text.dotted (Text.trim text) =
        [first, Base64Url.encode payload, Base64Url.encode signature] := by
  simp only [parse_eq_ok_iff_compact plain, isCompact_ofText]
  generalize Text.dotted (Text.trim text) = segments
  constructor
  · rintro ⟨_, ⟨opening, payload, signature⟩, named⟩
    exact ⟨⟨_, _, _, _, rfl, naming_of_opening opening named⟩, _, payload, signature, rfl⟩
  · rintro ⟨⟨_, _, _, header, cut, naming⟩, first, payload, signature, rfl⟩
    obtain ⟨rfl, _⟩ := List.cons.inj cut
    exact ⟨_, .mk naming.opening payload signature, naming.named⟩

/-- With a header that names an algorithm only the other segments are left to be refused. -/
theorem refused_iff_partRefused (naming : Naming first header) :
    Refused [first, payload, signature] flaw ↔ PartRefused [("payload", payload), ("signature", signature)] flaw := by
  let parts : Parts := ⟨first, {}, payload, signature⟩
  have headed : ∀ flaw, ¬parts.HeaderRefused flaw :=
    exists_mergedHeader_iff.mp ⟨header, mergedHeader_blank_eq_ok.mpr naming.opening⟩
  constructor
  · intro refused
    cases refused with
    | count unlike => exact absurd rfl unlike
    | parts refused =>
        cases refused with
        | header refused => exact absurd refused (headed _)
        | part _ refused => exact refused
  · exact fun refused => .parts (.part headed refused)

/-- A text looks like a signed token if it has three segments of which the first spells a header that names an
algorithm; bytes that are no text never do. Such a text is parsed as a token with that header exactly if the other two
segments are base64url texts, and refused for the first of them that is none; that is the only way to look like a token
and be none. Every token whose header names an algorithm looks like one. -/
theorem isCompact_naming (text : String) :
    (isCompact (Bytes.ofText text) = true ↔ ∃ first payload signature header,
      Text.dotted text = [first, payload, signature] ∧ Naming first header) ∧
    (Text.trim text = text → text.toList.head? ≠ some '{' →
      ((∃ jws, parse text = .ok jws ∧ jws.header.alg ≠ "") ↔
        isCompact (Bytes.ofText text) = true ∧ ∃ first payload signature,
          Text.dotted text = [first, Base64Url.encode payload, Base64Url.encode signature]) ∧
      ((isCompact (Bytes.ofText text) = true ↔ ∃ jws, parse text = .ok jws ∧ jws.header.alg ≠ "") ↔
        (isCompact (Bytes.ofText text) = true → ∃ first payload signature,
          Text.dotted text = [first, Base64Url.encode payload, Base64Url.encode signature])) ∧
      ∀ first payload signature header, Text.dotted text = [first, payload, signature] → Naming first header →
        (∀ jws, parse text = .ok jws → jws.header = header) ∧
        ∀ flaw, parse text = .error flaw ↔ PartRefused [("payload", payload), ("signature", signature)] flaw) ∧
    ∀ bytes, (∀ text, bytes ≠ Bytes.ofText text) → isCompact bytes = false := by
  refine ⟨isCompact_ofText, ?tokens, ?bytes⟩
  case tokens =>
      intro trimmed noBrace
      have plain : looksLikeDocument (Text.trim text) = false := by
        rw [trimmed, looksLikeDocument]
        simpa using noBrace
      have parsed := exists_parse_iff plain
      rw [trimmed] at parsed
      refine ⟨parsed, ?agree, ?differ⟩
      case agree =>
          rw [parsed]
          constructor
          · intro agrees looks
            exact (agrees.mp looks).2
          · intro readable
            exact ⟨fun looks => ⟨looks, readable looks⟩, And.left⟩
      case differ =>
          intro first payload signature header cut naming
          simp only [parse_eq_ok_iff_compact plain, parse_eq_error_iff_refused plain, trimmed, cut]
          constructor
          · rintro jws ⟨opening, payload, signature⟩
            exact naming.unique opening
          · intro flaw
            exact refused_iff_partRefused naming
  case bytes =>
      intro bytes foreign
      exact isCompact_of_foreign foreign

/-- A token, bytes that are no text, and a text whose last segment leaves a bit over that should be zero. -/
theorem isCompact_naming_loose :
    isCompact (Bytes.ofText "eyJhbGciOiJIUzI1NiJ9..AQ") = true ∧
      (∃ jws, parse "eyJhbGciOiJIUzI1NiJ9..AQ" = .ok jws ∧ jws.header.alg ≠ "") ∧
      isCompact [0xFF] = false ∧
      parse "eyJhbGciOiJIUzI1NiJ9..AR" = .error (.notBase64 "signature") := by
  obtain ⟨looks, agrees, notText⟩ := isCompact_naming "eyJhbGciOiJIUzI1NiJ9..AQ"
  obtain ⟨_, refuses, _⟩ := isCompact_naming "eyJhbGciOiJIUzI1NiJ9..AR"
  have naming : Naming "eyJhbGciOiJIUzI1NiJ9" { alg := "HS256" } :=
    ⟨⟨Bytes.ofText "\x7b\"alg\":\"HS256\"\x7d", by decide +kernel, ok_of_toOption (by decide +kernel)⟩, rfl, by decide⟩
  have cut : Text.dotted "eyJhbGciOiJIUzI1NiJ9..AQ" = ["eyJhbGciOiJIUzI1NiJ9", "", "AQ"] := by decide +kernel
  have cutLoose : Text.dotted "eyJhbGciOiJIUzI1NiJ9..AR" = ["eyJhbGciOiJIUzI1NiJ9", "", "AR"] := by decide +kernel
  have foreign : ∀ bytes, "AR" ≠ Base64Url.encode bytes := Base64Url.decode?_eq_none_iff.mp (by decide)
  have alike := looks.mpr ⟨_, _, _, _, cut, naming⟩
  refine ⟨alike, ?parsed, ?foreign, ?loose⟩
  case parsed =>
      obtain ⟨parsed, _⟩ := agrees (by decide +kernel) (by decide)
      exact parsed.mpr ⟨alike, _, [], [1], cut⟩
  case foreign =>
      refine notText _ fun text same => ?_
      have undecoded : Utf8.decode? [0xFF] = none := by decide +kernel
      cases undecoded.symm.trans (Utf8.decode?_eq_some_iff.mpr same)
  case loose =>
      obtain ⟨_, _, differ⟩ := refuses (by decide +kernel) (by decide)
      obtain ⟨_, refused⟩ := differ _ _ _ _ cutLoose naming
      exact (refused _).mpr (.later [] (.here foreign))

/-- What looks like a token need not be one. -/
theorem isCompact_unparsed :
    Text.trim "eyJhbGciOiJIUzI1NiJ9.!.!" = "eyJhbGciOiJIUzI1NiJ9.!.!" ∧
      "eyJhbGciOiJIUzI1NiJ9.!.!".toList.head? ≠ some '{' ∧
      isCompact (Bytes.ofText "eyJhbGciOiJIUzI1NiJ9.!.!") = true ∧
      ∀ jws, parse "eyJhbGciOiJIUzI1NiJ9.!.!" ≠ .ok jws := by
  refine ⟨by decide +kernel, by decide, by decide +kernel, ?_⟩
  intro jws parsed
  have refused : (parse "eyJhbGciOiJIUzI1NiJ9.!.!").toOption = none := by decide +kernel
  rw [parsed] at refused
  cases refused

end WebToken.Jws
