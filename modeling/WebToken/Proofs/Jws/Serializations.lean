import WebToken.Proofs.Json.Objects
import WebToken.Proofs.Json.Records
import WebToken.Proofs.Jws.RoundTrip
import WebToken.Proofs.Jws.Signatures

/-!
Three ways to write the parts of a signed token: as segments, as a document with the signature beside the
payload, and as one with a list of a single signature. The token is the same, however it is written.
-/

namespace WebToken.Jws

open Json Json.Record

def IsText (text : String) (node : Node) : Prop := node.text = .ok text

/-- The members of a signature, with whatever stands for a text. Its header may be left out. -/
def signatureMembers {α : Type} (value : String → α) (protectedText : Option String) (signature : String) :
    List (String × α) :=
  (protectedText.map fun text => ("protected", value text)).toList ++ [("signature", value signature)]

def IsSingle (given : List (String × (Node → Prop))) (node : Node) : Prop :=
  ∃ members, node = .array [.object members .closed] .closed ∧ Holds given members

/-- A document with the signature beside the payload, or in a list of its own. -/
inductive Serializes (protectedText : Option String) (payload signature : String) : Node → Prop
  | flattened {members : List (Body × Node)}
      (held : Holds (("payload", IsText payload) :: signatureMembers IsText protectedText signature) members) :
      Serializes protectedText payload signature (.object members .closed)
  | general {members : List (Body × Node)}
      (held : Holds [("payload", IsText payload),
        ("signatures", IsSingle (signatureMembers IsText protectedText signature))] members) :
      Serializes protectedText payload signature (.object members .closed)

/-- A text is such a document, with white space around it or not. -/
def Serialized (protectedText : Option String) (payload signature text : String) : Prop :=
  ∃ root, Json.Document.ofBytes (Bytes.ofText (Text.trim text)) .ended = ⟨root, none⟩ ∧
    Serializes protectedText payload signature root

variable {protectedText : Option String} {payload signature text : String} {members : List (Body × Node)}

/-- The members of a signature, as they are found by their names. -/
structure MakesEntry (protectedText : Option String) (signature : String) (members : List (Body × Node)) : Prop where
  named : ∀ member ∈ members, ∃ name, member.1.read = .ok name
  header : ∀ text, protectedText = some text → ∃ node, under "protected" members = [node] ∧ IsText text node
  headerless : protectedText = none → under "protected" members = []
  signature : ∃ node, under "signature" members = [node] ∧ IsText signature node
  only : ∀ name, name ≠ "protected" → name ≠ "signature" → under name members = []

/-- Members that have what is given for a signature make one, if they have nothing else. -/
theorem MakesEntry.of_given {given : List (String × (Node → Prop))} {others : List (Body × Node)}
    (held : Holds given members)
    (header : given.filter (·.1 == "protected") = (protectedText.map fun text => ("protected", IsText text)).toList)
    (signed : given.filter (·.1 == "signature") = [("signature", IsText signature)])
    (named : ∀ member ∈ others, ∃ name, member.1.read = .ok name)
    (sameHeader : under "protected" others = under "protected" members)
    (sameSignature : under "signature" others = under "signature" members)
    (only : ∀ name, name ≠ "protected" → name ≠ "signature" → under name others = []) :
    MakesEntry protectedText signature others where
  named := named
  header text same := by
    subst same
    exact sameHeader ▸ held.under_eq_singleton header
  headerless same := by
    subst same
    exact sameHeader ▸ held.under_eq_nil header
  signature := sameSignature ▸ held.under_eq_singleton signed
  only := only

theorem makesEntry_of_holds (held : Holds (signatureMembers IsText protectedText signature) members) :
    MakesEntry protectedText signature members := by
  have only : ∀ name, name ≠ "protected" → name ≠ "signature" → under name members = [] := by
    intro name notHeader notSignature
    refine held.under_eq_nil ?_
    cases protectedText <;> simp [signatureMembers, notHeader.symm, notSignature.symm]
  exact .of_given held (by cases protectedText <;> rfl) (by cases protectedText <;> rfl) held.named rfl rfl only

/-- Keeping a member beside the document's own changes nothing else of it. -/
theorem preserves_keepOther {β : Type} {get : Document → β}
    (same : ∀ document others, get { document with others := others } = get document) (name : String) :
    Preserves get (keepOther name) := by
  intro node update kept record
  rw [keepOther_eq_ok kept]
  exact same _ _

theorem IsText.exists_body {node : Node} (read : IsText text node) :
    ∃ body, node = .string body ∧ body.read = .ok text := by
  cases node with
  | string body => exact ⟨body, rfl, read⟩
  | _ => cases read

theorem IsText.optional {node : Node} (read : IsText text node) : node.optional Node.text = .ok (some text) := by
  obtain ⟨body, rfl, found⟩ := read.exists_body
  exact map_eq_ok.mpr ⟨text, found, rfl⟩

/-- A text is a sound value, so it is kept where it is not known. -/
theorem IsText.exists_keepOther {node : Node} (read : IsText text node) (name : String) :
    ∃ update, keepOther name node = .ok update := by
  obtain ⟨body, rfl, found⟩ := read.exists_body
  refine ⟨_, map_eq_ok.mpr ⟨.string text, ?_, rfl⟩⟩
  rw [Node.value, found]
  rfl

theorem forall_entryFields {readHeader : Node → Except Json.Fault Header} {holds : Member Entry → Prop}
    (header : holds (.of "protected" .defaulted (Node.optional Node.text) fun value entry =>
      { entry with protectedText := value }))
    (unprotectedHeader : holds (.of "header" .defaulted (Node.optional readHeader) fun value entry =>
      { entry with unprotectedHeader := value }))
    (signature : holds (.of "signature" .required Node.text fun value entry => { entry with signature := value })) :
    ∀ field ∈ entryFields readHeader, holds field := by
  have others := List.forall_mem_cons.mpr ⟨unprotectedHeader, List.forall_mem_singleton.mpr signature⟩
  exact List.forall_mem_cons.mpr ⟨header, others⟩

section Entry

variable {readHeader : Node → Except Json.Fault Header} (makes : MakesEntry protectedText signature members)

include makes

theorem MakesEntry.readable : Readable (entryFields readHeader) skipOther members [] := by
  refine ⟨makes.named, ?_, ?_⟩
  · refine forall_entryFields ?_ (Or.inl (makes.only "header" (by decide) (by decide))) ?_
    · cases given : protectedText with
      | none => exact Or.inl (makes.headerless given)
      | some text =>
          obtain ⟨node, once, read⟩ := makes.header text given
          exact known_of_once List.not_mem_nil once read.optional
    · obtain ⟨node, once, read⟩ := makes.signature
      exact known_of_once List.not_mem_nil once read
  · intro name foreign node present
    have nothing : under name members = [] := by
      refine makes.only name ?_ ?_ <;> (intro same; subst same; cases foreign)
    rw [nothing] at present
    cases present

theorem MakesEntry.entry_of_reading {names : List String} {entry : Entry}
    (reading : Reading (entryFields readHeader) skipOther members [] { signature := "" } names entry) :
    entry = ⟨protectedText, none, signature⟩ := by
  have header : entry.protectedText = protectedText := by
    have kept : ∀ another ∈ entryFields readHeader, another.name ≠ "protected" →
        Preserves Entry.protectedText another.read := by
      refine forall_entryFields ?own ?beside ?after
      case own => exact fun differs => absurd rfl differs
      case beside => exact fun _ => .of fun _ _ => rfl
      case after => exact fun _ => .of fun _ _ => rfl
    cases given : protectedText with
    | none => exact reading.get_of_absent rfl kept (preserves_skipOther _) (makes.headerless given)
    | some text =>
        obtain ⟨node, once, read⟩ := makes.header text given
        exact reading.get_of_once rfl kept (preserves_skipOther _) once read.optional fun _ => rfl
  have unprotectedHeader : entry.unprotectedHeader = none := by
    have kept : ∀ another ∈ entryFields readHeader, another.name ≠ "header" →
        Preserves Entry.unprotectedHeader another.read := by
      refine forall_entryFields ?before ?own ?after
      case before => exact fun _ => .of fun _ _ => rfl
      case own => exact fun differs => absurd rfl differs
      case after => exact fun _ => .of fun _ _ => rfl
    exact reading.get_of_absent rfl kept (preserves_skipOther _) (makes.only "header" (by decide) (by decide))
  have signatureText : entry.signature = signature := by
    have kept : ∀ another ∈ entryFields readHeader, another.name ≠ "signature" →
        Preserves Entry.signature another.read := by
      refine forall_entryFields ?before ?beside ?own
      case before => exact fun _ => .of fun _ _ => rfl
      case beside => exact fun _ => .of fun _ _ => rfl
      case own => exact fun differs => absurd rfl differs
    obtain ⟨node, once, read⟩ := makes.signature
    exact reading.get_of_once rfl kept (preserves_skipOther _) once read fun _ => rfl
  obtain ⟨_, _, _⟩ := entry
  subst header unprotectedHeader signatureText
  rfl

/-- Such members are read as the signature, in whichever way a header would be read. -/
theorem MakesEntry.ofMembers_eq_ok :
    ofMembers (entryFields readHeader) skipOther { signature := "" } members .closed =
      .ok ⟨protectedText, none, signature⟩ := by
  have distinct : ((entryFields readHeader).map (·.name)).Nodup := by
    change ["protected", "header", "signature"].Nodup
    decide
  have signed : under "signature" members ≠ [] := by
    obtain ⟨_, once, _⟩ := makes.signature
    exact once ▸ List.cons_ne_nil _ _
  have complete : ∀ field ∈ entryFields readHeader, field.presence = .required → under field.name members ≠ [] :=
    forall_entryFields nofun nofun fun _ => signed
  obtain ⟨names, entry, reading, found⟩ :=
    makes.readable.exists_ofMembers (fun _ known => Writes.find?_name distinct known) complete { signature := "" }
  rw [found, makes.entry_of_reading reading]

end Entry

section Document

variable {names : List String} {document : Document}

/-- What a document keeps beside its own members is foreign to it. -/
theorem foreign_of_mem_others {seen : List String} {start : Document}
    (reading : Reading documentFields keepOther members seen start names document)
    (foreign : ∀ other ∈ start.others, documentFields.find? (·.name == other.1) = none) :
    ∀ other ∈ document.others, documentFields.find? (·.name == other.1) = none := by
  induction reading with
  | done => exact foreign
  | unknown _ unknown kept _ ih =>
      rw [keepOther_eq_ok kept] at ih
      exact ih (List.forall_mem_cons.mpr ⟨unknown, foreign⟩)
  | known _ own _ read _ ih =>
      refine ih ?_
      rw [preserves_others _ (List.mem_of_find?_eq_some own) _ _ read]
      exact foreign

theorem under_beside_eq_nil {name : String} (reading : Reading documentFields keepOther members [] {} names document)
    (own : documentFields.find? (·.name == name) ≠ none) : under name document.beside = [] := by
  refine List.filterMap_eq_nil_iff.mpr fun member present => if_neg fun read => ?_
  obtain ⟨other, kept, rfl⟩ := List.mem_map.mp present
  obtain rfl : other.1 = name := by simpa [Body.read_ofText, Except.toOption] using read
  have noneYet : ∀ other ∈ ({} : Document).others, documentFields.find? (·.name == other.1) = none :=
    List.forall_mem_nil _
  exact own (foreign_of_mem_others reading noneYet other (List.mem_reverse.mp kept))

theorem makesEntry_beside
    (held : Holds (("payload", IsText payload) :: signatureMembers IsText protectedText signature) members)
    (reading : Reading documentFields keepOther members [] {} names document) :
    MakesEntry protectedText signature document.beside := by
  have same {name : String} (foreign : documentFields.find? (·.name == name) = none) :
      under name document.beside = under name members := under_beside foreign reading
  have named : ∀ member ∈ document.beside, ∃ name, member.1.read = .ok name := by
    intro member present
    obtain ⟨other, _, rfl⟩ := List.mem_map.mp present
    exact ⟨other.1, Body.read_ofText other.1⟩
  have only : ∀ name, name ≠ "protected" → name ≠ "signature" → under name document.beside = [] := by
    intro name notHeader notSignature
    by_cases foreign : documentFields.find? (·.name == name) = none
    · have notPayload : "payload" ≠ name := by
        intro same
        subst same
        cases foreign
      rw [same foreign]
      refine held.under_eq_nil ?_
      cases protectedText <;> simp [signatureMembers, notPayload, notHeader.symm, notSignature.symm]
    · exact under_beside_eq_nil reading foreign
  exact .of_given held (by cases protectedText <;> rfl) (by cases protectedText <;> rfl) named (same rfl) (same rfl)
    only

theorem exists_document (readable : Readable documentFields keepOther members []) {node : Node}
    (once : under "payload" members = [node]) (read : IsText payload node) :
    ∃ names document, Reading documentFields keepOther members [] {} names document ∧
      Document.read (.object members .closed) = .ok document ∧ document.payload = payload := by
  have present : under "payload" members ≠ [] := once ▸ List.cons_ne_nil _ _
  have complete : ∀ field ∈ documentFields, field.presence = .required → under field.name members ≠ [] :=
    forall_documentFields (fun _ => present) nofun
  obtain ⟨names, document, reading, found⟩ :=
    readable.exists_ofMembers (fun _ known => Writes.find?_name (by decide) known) complete {}
  have kept : ∀ another ∈ documentFields, another.name ≠ "payload" → Preserves Document.payload another.read := by
    refine forall_documentFields ?own ?beside
    case own => exact fun differs => absurd rfl differs
    case beside => exact fun _ => .of fun _ _ => rfl
  have same : document.payload = payload :=
    reading.get_of_once rfl kept (preserves_keepOther fun _ _ => rfl) once read fun _ => rfl
  exact ⟨names, document, reading, found, same⟩

theorem read_flattened
    (held : Holds (("payload", IsText payload) :: signatureMembers IsText protectedText signature) members) :
    ∃ document, Document.read (.object members .closed) = .ok document ∧ document.payload = payload ∧
      document.entry = .ok ⟨protectedText, none, signature⟩ := by
  have unlisted : under "signatures" members = [] := held.under_eq_nil (by cases protectedText <;> rfl)
  obtain ⟨node, once, read⟩ : ∃ node, under "payload" members = [node] ∧ IsText payload node :=
    held.under_eq_singleton (by cases protectedText <;> rfl)
  have readable : Readable documentFields keepOther members [] := by
    refine ⟨held.named, ?known, ?kept⟩
    case known => exact forall_documentFields (known_of_once List.not_mem_nil once read) (Or.inl unlisted)
    case kept =>
        intro name _ node present
        obtain ⟨value, given, valued⟩ := held.of_mem_under present
        obtain ⟨text, rfl⟩ : ∃ text, value = IsText text := by
          cases protectedText <;> simp [signatureMembers] at given <;> grind
        exact IsText.exists_keepOther valued name
  obtain ⟨names, document, reading, found, same⟩ := exists_document readable once read
  have noList : document.signatures = none :=
    reading.get_of_absent rfl preserves_signatures (preserves_keepOther fun _ _ => rfl) unlisted
  have flat : document.flatEntry? = some ⟨protectedText, none, signature⟩ :=
    congrArg Except.toOption (makesEntry_beside held reading).ofMembers_eq_ok
  refine ⟨document, found, same, ?_⟩
  rw [Document.entry, noList, flat]

theorem read_general (held : Holds [("payload", IsText payload),
      ("signatures", IsSingle (signatureMembers IsText protectedText signature))] members) :
    ∃ document, Document.read (.object members .closed) = .ok document ∧ document.payload = payload ∧
      document.entry = .ok ⟨protectedText, none, signature⟩ := by
  obtain ⟨node, once, read⟩ : ∃ node, under "payload" members = [node] ∧ IsText payload node :=
    held.under_eq_singleton rfl
  obtain ⟨_, listed, entry, rfl, entryHeld⟩ : ∃ node, under "signatures" members = [node] ∧
      IsSingle (signatureMembers IsText protectedText signature) node := held.under_eq_singleton rfl
  have entries : Node.optional (Node.list (Json.Record.read (entryFields Header.read) skipOther { signature := "" }))
      (.array [.object entry .closed] .closed) = .ok (some [⟨protectedText, none, signature⟩]) := by
    rw [Node.optional, Node.list, List.mapM_cons, Json.Record.read, (makesEntry_of_holds entryHeld).ofMembers_eq_ok]
    · rfl
    · intro null
      cases null
  have readable : Readable documentFields keepOther members [] := by
    refine ⟨held.named, ?known, ?kept⟩
    case known =>
        refine forall_documentFields (known_of_once List.not_mem_nil once read) ?_
        exact known_of_once List.not_mem_nil listed entries
    case kept =>
        intro name foreign node present
        obtain ⟨value, given, _⟩ := held.of_mem_under present
        rcases List.mem_cons.mp given with first | second
        · cases first
          cases foreign
        · cases List.mem_singleton.mp second
          cases foreign
  obtain ⟨names, document, reading, found, same⟩ := exists_document readable once read
  have oneList : document.signatures = some [⟨protectedText, none, signature⟩] :=
    reading.get_of_once rfl preserves_signatures (preserves_keepOther fun _ _ => rfl) listed entries
      fun _ => rfl
  refine ⟨document, found, same, ?_⟩
  rw [Document.entry, oneList]

end Document

theorem isBlank_of_ascii {c : Char} (ascii : c.toNat < 128) (unblank : WebToken.Text.isBlank c = false) :
    Scan.isBlank (UInt8.ofNat c.toNat) = false := by
  have same : (UInt8.ofNat c.toNat).toNat = c.toNat := by
    rw [UInt8.toNat_ofNat']
    exact Nat.mod_eq_of_lt (by omega)
  simp only [WebToken.Text.isBlank, Bool.or_eq_false_iff, beq_eq_false_iff_ne, Bool.and_eq_false_iff,
    decide_eq_false_iff_not] at unblank
  simp only [Scan.isBlank, Bool.or_eq_false_iff, beq_eq_false_iff_ne, ne_eq, ← UInt8.toNat_inj, same]
  refine ⟨⟨⟨?_, ?_⟩, ?_⟩, ?_⟩ <;> (intro blank; simp at blank; omega)

/-- A text whose bytes start with a brace starts with one, if it does not start with white space. -/
theorem looksLikeDocument_of_brace {after : Bytes}
    (unblank : ∀ c, text.toList.head? = some c → WebToken.Text.isBlank c = false)
    (brace : Scan.afterBlanks (Bytes.ofText text) = 0x7B :: after) : looksLikeDocument text = true := by
  rw [looksLikeDocument, beq_iff_eq]
  unfold Bytes.ofText at brace
  cases spelled : text.toList with
  | nil =>
      rw [spelled] at brace
      cases brace
  | cons c rest =>
      rw [spelled] at brace unblank
      by_cases ascii : c.toNat < 128
      · have kept : Scan.afterBlanks (Bytes.ofChars (c :: rest)) = UInt8.ofNat c.toNat :: Bytes.ofChars rest := by
          rw [Bytes.ofChars_cons, Utf8.encodeChar_ascii ascii, List.singleton_append, Scan.afterBlanks,
            List.dropWhile_cons_of_neg (by simp [isBlank_of_ascii ascii (unblank c rfl)])]
        have first := congrArg UInt8.toNat (List.cons.inj (kept.symm.trans brace)).1
        rw [UInt8.toNat_ofNat', Nat.mod_eq_of_lt (by omega)] at first
        have same : c = '{' := Char.toNat_inj.mp first
        rw [same, List.head?_cons]
      · -- No byte of another character is a brace, or blank.
        have nonempty : String.utf8EncodeChar c ≠ [] := String.utf8EncodeChar_ne_nil
        obtain ⟨byte, others, encoded⟩ := List.exists_cons_of_ne_nil nonempty
        have high : 128 ≤ byte.toNat :=
          Utf8.high_of_mem_encodeChar (Nat.not_lt.mp ascii) (encoded ▸ List.mem_cons_self)
        have kept : Scan.afterBlanks (Bytes.ofChars (c :: rest)) = byte :: (others ++ Bytes.ofChars rest) := by
          rw [Bytes.ofChars_cons, encoded, List.cons_append, Scan.afterBlanks, List.dropWhile_cons_of_neg]
          simp only [Scan.isBlank, Bool.or_eq_true, beq_iff_eq, ← UInt8.toNat_inj]
          intro blank
          simp at blank
          omega
        obtain rfl := (List.cons.inj (kept.symm.trans brace)).1
        exact absurd high (by decide)

theorem carries_of_serialized (written : Serialized protectedText payload signature text) :
    Carries text ⟨protectedText.getD "", {}, payload, signature⟩ := by
  obtain ⟨root, scanned, serializes⟩ := written
  obtain ⟨members, rfl, document, found, rfl, only⟩ : ∃ members, root = .object members .closed ∧
      ∃ document, Document.read (.object members .closed) = .ok document ∧ document.payload = payload ∧
        document.entry = .ok ⟨protectedText, none, signature⟩ := by
    cases serializes with
    | flattened held => exact ⟨_, rfl, read_flattened held⟩
    | general held => exact ⟨_, rfl, read_general held⟩
  obtain ⟨after, brace⟩ := Json.Document.brace_of_object (congrArg Json.Document.root scanned)
  have braced : looksLikeDocument (WebToken.Text.trim text) = true :=
    looksLikeDocument_of_brace (fun _ front => WebToken.Text.isBlank_head_trim front) brace
  have read : Json.read Document.read (Bytes.ofText (WebToken.Text.trim text)) = .ok document := by
    rw [read_eq_ok, scanned]
    exact ⟨found, rfl⟩
  exact .members braced read only

/-- The text of such a document, with the members of each object in any order. -/
inductive Written (protectedText : Option String) (payload signature : String) : List Char → Prop
  | flattened {order : List (String × List Char)}
      (perm : order.Perm (("payload", Text.quote payload) :: signatureMembers Text.quote protectedText signature)) :
      Written protectedText payload signature (Text.members order)
  | general {order beside : List (String × List Char)}
      (besidePerm : beside.Perm (signatureMembers Text.quote protectedText signature))
      (perm : order.Perm [("payload", Text.quote payload), ("signatures", Text.list [Text.members beside])]) :
      Written protectedText payload signature (Text.members order)

theorem spellsGiven_text (name text : String) : SpellsGiven (name, Text.quote text) (name, IsText text) :=
  ⟨rfl, _, .quote text, Body.read_quoted text⟩

theorem spellsGiven_signatureMembers (protectedText : Option String) (signature : String) :
    List.Forall₂ SpellsGiven (signatureMembers Text.quote protectedText signature)
      (signatureMembers IsText protectedText signature) := by
  cases protectedText with
  | none => exact .cons (spellsGiven_text _ _) .nil
  | some header => exact .cons (spellsGiven_text _ _) (.cons (spellsGiven_text _ _) .nil)

theorem serialized_of_written {chars : List Char} (written : Written protectedText payload signature chars) :
    Serialized protectedText payload signature (String.ofList chars) := by
  have whole {order : List (String × List Char)} {members : List (Body × Node)}
      (spelled : Spells (Text.members order) (.object members .closed)) :
      Json.Document.ofBytes (Bytes.ofText (WebToken.Text.trim (String.ofList (Text.members order)))) .ended =
        ⟨.object members .closed, none⟩ := by
    have trimmed : WebToken.Text.trim (String.ofList (Text.members order)) = String.ofList (Text.members order) :=
      WebToken.Text.trim_enclosed _ (by decide) (by decide)
    rw [trimmed, Bytes.ofText_ofList, spelled.ofBytes]
  cases written with
  | flattened perm =>
      obtain ⟨members, spelled, held⟩ :=
        Holds.of_perm perm (.cons (spellsGiven_text _ _) (spellsGiven_signatureMembers _ _))
      exact ⟨_, whole spelled, .flattened held⟩
  | @general order beside besidePerm perm =>
      obtain ⟨entry, entrySpelled, entryHeld⟩ := Holds.of_perm besidePerm (spellsGiven_signatureMembers _ _)
      have listed : SpellsGiven ("signatures", Text.list [Text.members beside])
          ("signatures", IsSingle (signatureMembers IsText protectedText signature)) :=
        ⟨rfl, _, .list (.cons entrySpelled .nil), entry, rfl, entryHeld⟩
      obtain ⟨members, spelled, held⟩ := Holds.of_perm perm (.cons (spellsGiven_text _ _) (.cons listed .nil))
      exact ⟨_, whole spelled, .general held⟩

/-- Parts in the base64url alphabet make one token, however they are written: as segments, as a document with
the signature beside the payload, or as one with a list of it, whatever the order of the members and with an
empty header left out or not. All are refused for the same flaw, or give a token that the same keys verify. -/
theorem serializations_agree
    (spelled : ∀ part ∈ [protectedText.getD "", payload, signature], ∀ c ∈ part.toList,
      (Base64Url.value? c).isSome = true) :
    (∀ text, Serialized protectedText payload signature text →
      parse text = parse (WebToken.Text.joinDotted [protectedText.getD "", payload, signature]) ∧
      ∀ key, ((parse text).mapError Error.invalidToken >>= fun jws => jws.verify key) =
        ((parse (WebToken.Text.joinDotted [protectedText.getD "", payload, signature])).mapError
          Error.invalidToken >>= fun jws => jws.verify key)) ∧
    ∀ chars, Written protectedText payload signature chars →
      Serialized protectedText payload signature (String.ofList chars) := by
  have segments : WebToken.Text.Segments [protectedText.getD "", payload, signature] := by
    intro part present c inside
    obtain ⟨value, read⟩ := Option.isSome_iff_exists.mp (spelled part present c inside)
    obtain ⟨bound, rfl⟩ := Base64Url.digit_of_value? read
    exact WebToken.Text.plain_digit bound
  constructor
  · intro text written
    have carried : Carries text ⟨protectedText.getD "", {}, payload, signature⟩ := carries_of_serialized written
    have same : parse text = parse (WebToken.Text.joinDotted [protectedText.getD "", payload, signature]) := by
      rw [parse_of_carries carried, parse_of_carries (carries_joinDotted segments)]
    refine ⟨same, ?_⟩
    intro key
    rw [same]
  · intro chars written
    exact serialized_of_written written

/-- A signature in front of its header makes a token, and one that is no base64url is refused in a list too,
where an empty header is left out. -/
theorem serializations_agree_reordered :
    (parse "\x7b\"signature\":\"AA\",\"payload\":\"e30\",\"protected\":\"eyJhbGciOiJIUzI1NiJ9\"\x7d" =
        parse "eyJhbGciOiJIUzI1NiJ9.e30.AA" ∧
      parse "eyJhbGciOiJIUzI1NiJ9.e30.AA" =
        .ok ⟨{ alg := "HS256" }, Bytes.ofText "eyJhbGciOiJIUzI1NiJ9.e30", Bytes.ofText "\x7b\x7d", [0]⟩) ∧
    parse "\x7b\"signatures\":[\x7b\"signature\":\"A\"\x7d],\"payload\":\"e30\"\x7d" = parse ".e30.A" ∧
      parse ".e30.A" = .error (.notBase64 "signature") := by
  have alphabet (parts : List String)
      (spelled : (parts.all fun part => part.toList.all fun c => (Base64Url.value? c).isSome) = true) :
      ∀ part ∈ parts, ∀ c ∈ part.toList, (Base64Url.value? c).isSome = true := by
    intro part present
    exact List.all_eq_true.mp (List.all_eq_true.mp spelled part present)
  obtain ⟨agree, covers⟩ :=
    @serializations_agree (some "eyJhbGciOiJIUzI1NiJ9") "e30" "AA" (alphabet _ (by decide))
  have reordered : Written (some "eyJhbGciOiJIUzI1NiJ9") "e30" "AA" (Text.members [("signature", Text.quote "AA"),
      ("payload", Text.quote "e30"), ("protected", Text.quote "eyJhbGciOiJIUzI1NiJ9")]) := .flattened (by decide)
  obtain ⟨agreeToo, coversToo⟩ := @serializations_agree none "e30" "A" (alphabet _ (by decide))
  have headerless : Written none "e30" "A" (Text.members
      [("signatures", Text.list [Text.members [("signature", Text.quote "A")]]), ("payload", Text.quote "e30")]) :=
    .general (.refl _) (.swap _ _ _)
  obtain ⟨same, _⟩ := agree _ (covers _ reordered)
  obtain ⟨sameToo, _⟩ := agreeToo _ (coversToo _ headerless)
  exact ⟨⟨same, ok_of_toOption (by decide +kernel)⟩, sameToo, rfl⟩

end WebToken.Jws
