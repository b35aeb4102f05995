import Mathlib.Algebra.GroupWithZero.Nat
import WebToken.Proofs.Json.Members
import WebToken.Proofs.Json.Strings
import WebToken.Proofs.Jws.Parsing

/-!
How many signatures an accepted document carries. They are counted in the document itself: the items of
each list of signatures, and each signature beside the payload.
-/

namespace WebToken.Jws

open Json

/-- The lengths of the lists of signatures. -/
def listed (members : List (Body × Node)) : List Nat := (under "signatures" members).filterMap Node.size?

/-- The number of signatures in all. -/
def signatureCount (members : List (Body × Node)) : Nat :=
  (listed members).sum + (under "signature" members).length

/-- The members beside the payload make a signature: it is given once, and so are its headers if at all. -/
structure Usable (members : List (Body × Node)) : Prop where
  signature : Once "signature" Node.text members
  protectedText : AtMostOnce "protected" (Node.optional Node.text) members
  unprotectedHeader : AtMostOnce "header" (Node.optional (Header.readWith (Jwk.readWith KeyUse.readSound))) members

variable {members : List (Body × Node)} {seen names : List String} {document : Document}

/-- The members that a document keeps beside its own, as they are read again. -/
def Document.beside (document : Document) : List (Body × Node) :=
  document.others.reverse.map fun member => (Body.ofText member.1, member.2)

theorem keepOther_eq_ok {name : String} {node : Node} {update : Document → Document}
    (kept : keepOther name node = .ok update) :
    update = fun document => { document with others := (name, node) :: document.others } := by
  obtain ⟨_, _, same⟩ := map_eq_ok.mp kept
  exact same.symm

theorem forall_documentFields {holds : Member Document → Prop}
    (payload : holds (.of "payload" .required Node.text fun value document => { document with payload := value }))
    (signatures : holds (.of "signatures" .defaulted
      (Node.optional (Node.list (Json.Record.read (entryFields Header.read) Json.Record.skipOther { signature := "" })))
      fun value document => { document with signatures := value })) :
    ∀ field ∈ documentFields, holds field :=
  List.forall_mem_cons.mpr ⟨payload, List.forall_mem_singleton.mpr signatures⟩

theorem preserves_others : ∀ field ∈ documentFields, Record.Preserves Document.others field.read := by
  refine forall_documentFields ?payload ?signatures
  case payload => exact .of fun _ _ => rfl
  case signatures => exact .of fun _ _ => rfl

/-- What is not the document's own is kept, in its order. -/
theorem under_beside {name : String} {start final : Document}
    (foreign : documentFields.find? (·.name == name) = none)
    (reading : Record.Reading documentFields keepOther members seen start names final) :
    under name final.beside = under name start.beside ++ under name members := by
  induction reading with
  | done => exact (List.append_nil _).symm
  | @unknown key item rest other _ record _ _ _ named _ kept _ ih =>
      -- A member is kept in front of the others, and they are read again from the back.
      have grown : under name (Document.beside { record with others := (other, item) :: record.others }) =
          under name record.beside ++ under name [(Body.ofText other, item)] := by
        rw [← under_append, Document.beside, List.reverse_cons, List.map_append]
        rfl
      rw [ih, keepOther_eq_ok kept, grown, List.append_assoc]
      congr 1
      by_cases same : other = name
      · subst same
        rw [under_cons_same named, under_cons_same (Body.read_ofText other)]
        rfl
      · rw [under_cons_other named same, under_cons_other (Body.read_ofText other) same]
        rfl
  | @known _ _ _ _ record update _ _ field named own _ read _ ih =>
      have unchanged : (update record).beside = record.beside := by
        rw [Document.beside, preserves_others _ (List.mem_of_find?_eq_some own) _ _ read, Document.beside]
      rw [ih, unchanged, under_cons_other named (Record.name_ne_of_foreign own foreign)]

theorem preserves_signatures :
    ∀ field ∈ documentFields, field.name ≠ "signatures" → Record.Preserves Document.signatures field.read := by
  refine forall_documentFields ?beside ?own
  case beside => exact fun _ => .of fun _ _ => rfl
  case own => exact fun differs => absurd rfl differs

/-- The signatures of a document are the items of the only list that it gives, if it gives one. -/
theorem listed_of_reading (reading : Record.Reading documentFields keepOther members [] {} names document) :
    listed members = (document.signatures.map List.length).toList := by
  have keptBeside (name : String) : Record.Preserves Document.signatures (keepOther name) := fun _ _ kept _ => by
    rw [keepOther_eq_ok kept]
  have gives : Record.Gives documentFields[1] Document.signatures members {} document :=
    reading.gives rfl preserves_signatures keptBeside
  cases gives with
  | absent missing same =>
      rw [same, listed, show under "signatures" members = [] from missing]
      rfl
  | once only read put =>
      obtain ⟨values, given, rfl⟩ := map_eq_ok.mp read
      rw [put, listed, show under "signatures" members = _ from only, List.filterMap_cons, size?_of_optional_list given]
      cases values <;> rfl

theorem usable_of_flatEntry {entry : Entry}
    (reading : Record.Reading documentFields keepOther members [] {} names document)
    (found : document.flatEntry? = some entry) : Usable members := by
  have same {name : String} (foreign : documentFields.find? (·.name == name) = none) :
      under name members = under name document.beside := (under_beside foreign reading).symm
  have made := ok_of_toOption found
  obtain ⟨_, entryReading, _⟩ := Record.reading_of_ofMembers made
  refine ⟨?_, ?_, ?_⟩
  · rw [Once, same rfl]
    exact Record.once_of_ofMembers made rfl
  · rw [AtMostOnce, Once, same rfl]
    exact entryReading.at_most_once rfl
  · rw [AtMostOnce, Once, same rfl]
    exact entryReading.at_most_once rfl

def membersOf (text : String) : List (Body × Node) :=
  (Json.Document.ofBytes (Bytes.ofText (Text.trim text)) .ended).root.members

variable {text : String}

theorem Document.exists_reading {node : Node} (found : Document.read node = .ok document) :
    ∃ names, Record.Reading documentFields keepOther node.members [] {} names document := by
  unfold Document.read at found
  split at found
  · obtain ⟨names, reading, _⟩ := Record.reading_of_ofMembers found
    exact ⟨names, reading⟩
  · cases found

/-- A document that is read has a signature if its only list has one item, or if it has no list and what
stands beside the payload makes a signature. -/
theorem entry_of_reading (reading : Record.Reading documentFields keepOther members [] {} names document) :
    (∀ count ∈ listed members, count ≠ 1 → document.entry = .error (.signatureCount count)) ∧
      (listed members = [] → ¬Usable members → document.entry = .error .noSignature) ∧
      ∀ entry, document.entry = .ok entry → listed members = [1] ∨ listed members = [] ∧ Usable members := by
  have lengths := listed_of_reading reading
  cases signatures : document.signatures with
  | none =>
      rw [signatures] at lengths
      have noneListed : listed members = [] := lengths
      rw [noneListed]
      cases flat : document.flatEntry? with
      | none =>
          have refused : document.entry = .error .noSignature := by rw [Document.entry, signatures, flat]
          refine ⟨fun _ present => absurd present List.not_mem_nil, fun _ _ => refused, ?_⟩
          intro entry only
          cases refused.symm.trans only
      | some entry =>
          have usable := usable_of_flatEntry reading flat
          refine ⟨fun _ present => absurd present List.not_mem_nil, ?_, ?_⟩
          · intro _ unusable
            exact absurd usable unusable
          · intro _ _
            exact Or.inr ⟨rfl, usable⟩
  | some entries =>
      rw [signatures] at lengths
      have oneListed : listed members = [entries.length] := lengths
      rw [oneListed, Document.entry, signatures]
      refine ⟨?_, nofun, ?_⟩
      · intro count present many
        obtain rfl := List.mem_singleton.mp present
        match entries with
        | [] | _ :: _ :: _ => rfl
        | [_] => exact absurd rfl many
      · intro entry only
        match entries with
        | [] | _ :: _ :: _ => cases only
        | [_] => exact Or.inl rfl

theorem parse_of_braced (braced : looksLikeDocument (Text.trim text) = true) :
    parse text = .error .jsonMalformed ∨
      ∃ document names, Record.Reading documentFields keepOther (membersOf text) [] {} names document ∧
        parse text = document.entry >>= fun entry => ofParts (entry.protectedText.getD "")
          (entry.unprotectedHeader.getD {}) document.payload entry.signature := by
  rw [parse, if_pos braced, ofDocument]
  cases given : Json.read Document.read (Bytes.ofText (Text.trim text)) with
  | error fault => exact Or.inl rfl
  | ok document =>
      obtain ⟨found, _⟩ := read_eq_ok.mp given
      obtain ⟨names, reading⟩ := Document.exists_reading found
      exact Or.inr ⟨document, names, reading, rfl⟩

/-- An accepted document carries one signature in all, except that one beside the payload is passed over
where a list is given. No other number of signatures is accepted, nor a document without one. -/
theorem parse_signature_count (braced : looksLikeDocument (Text.trim text) = true) :
    (∀ count ∈ listed (membersOf text), count ≠ 1 →
      parse text = .error .jsonMalformed ∨ parse text = .error (.signatureCount count)) ∧
    (listed (membersOf text) = [] → ¬Usable (membersOf text) →
      parse text = .error .jsonMalformed ∨ parse text = .error .noSignature) ∧
    ∀ jws, parse text = .ok jws → listed (membersOf text) = [] ∨ under "signature" (membersOf text) = [] →
      signatureCount (membersOf text) = 1 := by
  rcases parse_of_braced braced with malformed | ⟨document, names, reading, parsed⟩
  · refine ⟨fun _ _ _ => Or.inl malformed, fun _ _ => Or.inl malformed, ?_⟩
    intro jws accepted
    cases malformed.symm.trans accepted
  · obtain ⟨many, missing, only⟩ := entry_of_reading reading
    refine ⟨?_, ?_, ?_⟩
    · intro count present several
      rw [parsed, many count present several]
      exact Or.inr rfl
    · intro unlisted unusable
      rw [parsed, missing unlisted unusable]
      exact Or.inr rfl
    · intro jws accepted unmixed
      obtain ⟨entry, chosen, _⟩ := bind_eq_ok.mp (parsed.symm.trans accepted)
      rcases only entry chosen with single | ⟨unlisted, usable⟩
      · have alone : under "signature" (membersOf text) = [] := unmixed.resolve_left (by simp [single])
        rw [signatureCount, single, alone]
        rfl
      · obtain ⟨_, _, alone, _⟩ := usable.signature
        rw [signatureCount, unlisted, alone]
        rfl

/-- The document of an empty object with a list of signatures and members beside it. -/
def documentWith (signatures beside : String) : String :=
  "\x7b\"payload\":\"e30\",\"signatures\":" ++ signatures ++ beside ++ "\x7d"

/-- A list of two signatures is refused, and so is a document without any; one beside the payload is accepted. -/
theorem parse_signature_count_unlisted :
    (parse (documentWith "[\x7b\"signature\":\"AA\"\x7d,\x7b\"signature\":\"AA\"\x7d]" "") = .error .jsonMalformed ∨
      parse (documentWith "[\x7b\"signature\":\"AA\"\x7d,\x7b\"signature\":\"AA\"\x7d]" "") =
        .error (.signatureCount 2)) ∧
    (parse (documentWith "null" "") = .error .jsonMalformed ∨ parse (documentWith "null" "") = .error .noSignature) ∧
    ∃ jws, parse (documentWith "null" ",\"protected\":\"eyJhbGciOiJIUzI1NiJ9\",\"signature\":\"AA\"") = .ok jws ∧
      signatureCount (membersOf
        (documentWith "null" ",\"protected\":\"eyJhbGciOiJIUzI1NiJ9\",\"signature\":\"AA\"")) = 1 := by
  have unusable : ¬Usable (membersOf (documentWith "null" "")) := by
    intro usable
    obtain ⟨_, _, alone, _⟩ := usable.signature
    have unsigned : (under "signature" (membersOf (documentWith "null" ""))).length = 0 := by decide +kernel
    rw [alone] at unsigned
    cases unsigned
  have parsed : parse (documentWith "null" ",\"protected\":\"eyJhbGciOiJIUzI1NiJ9\",\"signature\":\"AA\"") =
      .ok ⟨{ alg := "HS256" }, Bytes.ofText "eyJhbGciOiJIUzI1NiJ9.e30", Bytes.ofText "\x7b\x7d", [0]⟩ :=
    ok_of_toOption (by decide +kernel)
  refine ⟨?several, ?unsigned, _, parsed, ?beside⟩
  case several =>
      have braced : looksLikeDocument (Text.trim
          (documentWith "[\x7b\"signature\":\"AA\"\x7d,\x7b\"signature\":\"AA\"\x7d]" "")) = true := by
        decide +kernel
      obtain ⟨several, _⟩ := parse_signature_count braced
      exact several 2 (by decide +kernel) (by decide)
  case unsigned =>
      have braced : looksLikeDocument (Text.trim (documentWith "null" "")) = true := by decide +kernel
      obtain ⟨_, unsigned, _⟩ := parse_signature_count braced
      exact unsigned (by decide +kernel) unusable
  case beside =>
      have braced : looksLikeDocument (Text.trim
          (documentWith "null" ",\"protected\":\"eyJhbGciOiJIUzI1NiJ9\",\"signature\":\"AA\"")) = true := by
        decide +kernel
      obtain ⟨_, _, single⟩ := parse_signature_count braced
      exact single _ parsed (Or.inl (by decide +kernel))

/-- One signature in a list and one beside the payload are accepted. -/
theorem parse_signature_count_mixed :
    ∃ jws, parse (documentWith "[\x7b\"protected\":\"eyJhbGciOiJIUzI1NiJ9\",\"signature\":\"AA\"\x7d]"
        ",\"signature\":\"AA\"") = .ok jws ∧
      signatureCount (membersOf (documentWith
        "[\x7b\"protected\":\"eyJhbGciOiJIUzI1NiJ9\",\"signature\":\"AA\"\x7d]" ",\"signature\":\"AA\"")) = 2 := by
  have parsed : parse (documentWith "[\x7b\"protected\":\"eyJhbGciOiJIUzI1NiJ9\",\"signature\":\"AA\"\x7d]"
      ",\"signature\":\"AA\"") =
      .ok ⟨{ alg := "HS256" }, Bytes.ofText "eyJhbGciOiJIUzI1NiJ9.e30", Bytes.ofText "\x7b\x7d", [0]⟩ :=
    ok_of_toOption (by decide +kernel)
  exact ⟨_, parsed, by decide +kernel⟩

end WebToken.Jws
