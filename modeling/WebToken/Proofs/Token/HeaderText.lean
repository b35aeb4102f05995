import Mathlib.Data.List.Forall2
import WebToken.Proofs.Json.Recognition
import WebToken.Proofs.Jwe.Compact
import WebToken.Proofs.Jws.Compact

/-!
What a header segment may hold. The bytes behind it are the text of a JSON object, or of an array with an item for
each member that a header can have; all other bytes are refused as no object.
-/

namespace WebToken

namespace Header

open Json

/-- A segment holds the text of a value of a shape. -/
def HoldsText (shape : Shape) (segment : String) : Prop :=
  ∃ bytes, segment = Base64Url.encode bytes ∧ IsText shape bytes

theorem HoldsText.unique {one other : Shape} {segment : String} (first : HoldsText one segment)
    (second : HoldsText other segment) : one = other := by
  obtain ⟨bytes, rfl, isText⟩ := first
  obtain ⟨_, same, alsoText⟩ := second
  obtain rfl := Base64Url.encode_injective same
  exact isText.unique alsoText

/-- The segment of the array of a header's members, with null for what the header does not have. -/
def arraySegment (header : Header) : String :=
  Base64Url.encode (Bytes.ofChars (Text.list (header.slots.map fun slot => slot.2.getD Value.null.write)))

variable {header : Header} {bytes : Bytes} {segment : String}

theorem shape_of_read {root : Node} {shape : Shape} (found : read root = .ok header)
    (shown : root.shape? = some shape) : shape = .object ∨ shape = .array 13 := by
  unfold read readWith Record.read at found
  split at found
  · rename_i members ending
    cases ending <;> cases shown
    exact Or.inl rfl
  · rename_i items ending
    cases ending <;> cases shown
    obtain ⟨most, missing⟩ := Record.missing_of_readItems found
    have complete : ¬items.length ≤ 12 := fun short =>
      nomatch missing _ (List.drop_subset_drop_left (fields Jwk.read) short List.mem_cons_self)
    exact Or.inr (congrArg Shape.array (Nat.le_antisymm most (Nat.lt_of_not_le complete)))
  · cases found

/-- A segment that spells a header holds an object, or an array of as many items as a header has members. -/
theorem holdsText_of_spelled (spelled : Spelled segment header) :
    HoldsText .object segment ∨ HoldsText (.array 13) segment := by
  obtain ⟨bytes, written, found⟩ := spelled
  obtain ⟨given, nothing⟩ := read_eq_ok.mp found
  obtain ⟨shape, shown, isText⟩ := exists_isText nothing
  rcases shape_of_read given shown with rfl | rfl
  · exact Or.inl ⟨bytes, written, isText⟩
  · exact Or.inr ⟨bytes, written, isText⟩

theorem refused_of_not_holdsText (written : segment = Base64Url.encode bytes) (noObject : ¬HoldsText .object segment)
    (noArray : ¬HoldsText (.array 13) segment) : Refused segment .headerNotObject := by
  cases found : Json.read read bytes with
  | error fault => exact .notObject written found
  | ok header =>
      rcases holdsText_of_spelled ⟨bytes, written, found⟩ with object | array
      · exact absurd object noObject
      · exact absurd array noArray

theorem lists (counted : header.Counted) :
    Lists (fields Jwk.read) (header.slots.map fun slot => slot.2.getD Value.null.write) {} header := by
  unfold fields slots
  simp only [List.map_cons, List.map_nil, Option.getD_some]
  refine .of (.text header.alg) ?_
  dsimp only
  iterate 4
    refine .optional (fun value _ => .text value) ?_
    dsimp only
  refine .optional (fun jwk _ => jwk.reads) ?_
  dsimp only
  iterate 5
    refine .optional (fun value _ => .text value) ?_
    dsimp only
  refine .optional (fun count there => reads_count (counted count there)) ?_
  dsimp only
  refine .optional (fun names _ => .list names fun name _ => .text name) ?_
  exact .nil header

theorem isText_of_spells {text : List Char} {node : Node} {shape : Shape} (spelled : Spells text node)
    (shown : node.shape? = some shape) : IsText shape (Bytes.ofChars text) := by
  rw [isText_iff, spelled.ofBytes]
  exact ⟨rfl, shown⟩

theorem holdsText_encode (counted : header.Counted) : HoldsText .object header.encode := by
  obtain ⟨members, spelled, _⟩ := (writes counted).ofMembers (by decide) Record.skipOther
  refine ⟨_, rfl, ?_⟩
  rw [toText, Bytes.ofText_ofList, entries_eq]
  exact isText_of_spells (.members spelled) rfl

/-- The array of the members of a header is read as the header. -/
theorem spelled_arraySegment (counted : header.Counted) :
    HoldsText (.array 13) header.arraySegment ∧ Spelled header.arraySegment header := by
  obtain ⟨nodes, spelled, found⟩ := (lists counted).read Record.skipOther
  have size : nodes.length = 13 := spelled.length_eq.symm
  have spells := Spells.list spelled
  refine ⟨⟨_, rfl, isText_of_spells spells (congrArg (some ∘ Shape.array) size)⟩, _, rfl, ?_⟩
  rw [spells.read]
  exact found

end Header

/-- What is protected in a signed token is a header that is decoded. -/
theorem Jws.exists_decode_of_parse {text : String} {parts : Parts} {jws : Jws} (carried : Carries text parts)
    (parsed : parse text = .ok jws) (nonempty : parts.protectedText ≠ "") :
    ∃ header, Header.decode parts.protectedText = .ok header := by
  rw [parse_of_carries carried] at parsed
  have merged := (ofParts_eq_ok.mp parsed).header
  rw [mergedHeader, if_neg (by simpa using nonempty)] at merged
  obtain ⟨header, decoded, _⟩ := map_eq_ok.mp merged
  exact ⟨header, decoded⟩

/-- What the decoding of a header segment tells of the text in it, and what the text tells of the decoding. -/
structure Header.TellsText (segment : String) : Prop where
  held : ∀ header, decode segment = .ok header → HoldsText .object segment ∨ HoldsText (.array 13) segment
  unique : ∀ one other, HoldsText one segment → HoldsText other segment → one = other
  foreign : (∀ bytes, segment ≠ Base64Url.encode bytes) → decode segment = .error .headerNotBase64
  neither : ∀ bytes, segment = Base64Url.encode bytes → ¬HoldsText .object segment → ¬HoldsText (.array 13) segment →
    decode segment = .error .headerNotObject
  objects : (∀ header, decode segment = .ok header → HoldsText .object segment) ↔
    ¬(HoldsText (.array 13) segment ∧ ∃ header, decode segment = .ok header)
  writtenObject : ∀ header : Header, header.Counted → header.crit = none → segment = header.encode →
    HoldsText .object segment ∧ decode segment = .ok header
  writtenArray : ∀ header : Header, header.Counted → header.crit = none → segment = header.arraySegment →
    HoldsText (.array 13) segment ∧ decode segment = .ok header
  signed : ∀ text parts jws, Jws.Carries text parts → Jws.parse text = .ok jws → parts.protectedText = segment →
    segment ≠ "" → HoldsText .object segment ∨ HoldsText (.array 13) segment
  encrypted : ∀ text jwe, Jwe.parse text = .ok jwe → jwe.protectedText = segment →
    HoldsText .object segment ∨ HoldsText (.array 13) segment

/-- A header segment is decoded only if it holds the text of a JSON object, or of an array of thirteen items, and never
of both; one that holds neither is refused as no object, or as no base64url text. So all that is decoded is an object
unless such an array is decoded, which does happen: every header that calls nothing critical is decoded from the array
of its members as well as from its object. The header of a parsed token holds one of the two. -/
theorem Header.decode_holdsText (segment : String) : TellsText segment := by
  have held (header : Header) (decoded : decode segment = .ok header) :
      HoldsText .object segment ∨ HoldsText (.array 13) segment :=
    holdsText_of_spelled (decode_eq_ok.mp decoded).1
  constructor
  case held => exact held
  case unique => exact fun one other => HoldsText.unique
  case foreign => exact fun foreign => decode_eq_error.mpr (.notBase64 foreign)
  case neither =>
      intro bytes written noObject noArray
      exact decode_eq_error.mpr (refused_of_not_holdsText written noObject noArray)
  case objects =>
      constructor
      · rintro objects ⟨array, header, decoded⟩
        cases (objects header decoded).unique array
      · intro noArray header decoded
        refine (held header decoded).resolve_right fun array => ?_
        exact noArray ⟨array, header, decoded⟩
  case writtenObject =>
      rintro header counted nothingCritical rfl
      exact ⟨holdsText_encode counted, decode_encode counted nothingCritical⟩
  case writtenArray =>
      rintro header counted nothingCritical rfl
      obtain ⟨array, spelled⟩ := spelled_arraySegment counted
      exact ⟨array, decode_eq_ok.mpr ⟨spelled, nothingCritical⟩⟩
  case signed =>
      rintro text parts jws carried parsed rfl nonempty
      obtain ⟨header, decoded⟩ := Jws.exists_decode_of_parse carried parsed nonempty
      exact held header decoded
  case encrypted =>
      rintro text jwe parsed rfl
      exact held jwe.header (Jwe.parse_eq_ok.mp parsed).header

/-- An array of one item, a text that is no base64url text, a header that is read from its array, and the headers of
two tokens. -/
theorem Header.decode_holdsText_dir :
    decode (Base64Url.encode (Bytes.ofText "[1]")) = .error .headerNotObject ∧
      decode "!" = .error .headerNotBase64 ∧
      decode (arraySegment { alg := "dir" }) = .ok { alg := "dir" } ∧
      (HoldsText .object "eyJhbGciOiJub25lIn0" ∨ HoldsText (.array 13) "eyJhbGciOiJub25lIn0") ∧
      (HoldsText .object "eyJhbGciOiJkaXIiLCJlbmMiOiJBMjU2R0NNIn0" ∨
        HoldsText (.array 13) "eyJhbGciOiJkaXIiLCJlbmMiOiJBMjU2R0NNIn0") := by
  have shown : (Json.Document.ofBytes (Bytes.ofText "[1]") .ended).root.shape? = some (.array 1) := by decide +kernel
  have one : HoldsText (.array 1) (Base64Url.encode (Bytes.ofText "[1]")) :=
    ⟨_, rfl, Json.isText_iff.mpr ⟨by decide +kernel, shown⟩⟩
  obtain ⟨parts, carried, protectedText⟩ : ∃ parts, Jws.Carries "eyJhbGciOiJub25lIn0.." parts ∧
      parts.protectedText = "eyJhbGciOiJub25lIn0" :=
    ⟨⟨"eyJhbGciOiJub25lIn0", {}, "", ""⟩, .segments (by decide +kernel) (by decide +kernel), rfl⟩
  have parsed : Jws.parse "eyJhbGciOiJub25lIn0.." =
      .ok ⟨{ alg := "none" }, Bytes.ofText "eyJhbGciOiJub25lIn0.", [], []⟩ := ok_of_toOption (by decide +kernel)
  have sealedToken : Jwe.parse "eyJhbGciOiJkaXIiLCJlbmMiOiJBMjU2R0NNIn0...." =
      .ok ⟨{ alg := "dir", enc := some "A256GCM" }, "eyJhbGciOiJkaXIiLCJlbmMiOiJBMjU2R0NNIn0", [], ⟨[], [], []⟩⟩ :=
    ok_of_toOption (by decide +kernel)
  have single := decode_holdsText (Base64Url.encode (Bytes.ofText "[1]"))
  refine ⟨?single, ?foreign, ?array, ?signed, ?encrypted⟩
  case single =>
      refine single.neither _ rfl ?_ ?_
      · intro object
        cases single.unique _ _ object one
      · intro array
        cases single.unique _ _ array one
  case foreign => exact (decode_holdsText "!").foreign (Base64Url.decode?_eq_none_iff.mp (by decide))
  case array =>
      obtain ⟨_, decoded⟩ := (decode_holdsText _).writtenArray { alg := "dir" } nofun rfl rfl
      exact decoded
  case signed => exact (decode_holdsText _).signed _ parts _ carried parsed protectedText (by decide)
  case encrypted => exact (decode_holdsText _).encrypted _ _ sealedToken rfl

/-- A header may be no object at all, and a string in it that no member asks for need not be UTF-8. -/
theorem Header.decode_array :
    (¬HoldsText .object (arraySegment { alg := "HS256" }) ∧
      decode (arraySegment { alg := "HS256" }) = .ok { alg := "HS256" }) ∧
      (∃ jws, jws.header = { alg := "HS256" } ∧ Jws.parse (Text.joinDotted [arraySegment { alg := "HS256" },
        Base64Url.encode (Bytes.ofText "\x7b\x7d"), Base64Url.encode [0]]) = .ok jws) ∧
      ∃ bytes, Utf8.decode? bytes = none ∧ decode (Base64Url.encode bytes) = .ok { alg := "HS256" } := by
  have counted : Header.Counted { alg := "HS256" } := nofun
  obtain ⟨array, spelled⟩ := spelled_arraySegment counted
  refine ⟨⟨?noObject, ?decoded⟩, ?parsed, ?foreign⟩
  case noObject =>
      intro object
      cases object.unique array
  case decoded => exact decode_eq_ok.mpr ⟨spelled, rfl⟩
  case parsed =>
      have made := Jws.make_iff_compact.mpr (.mk (.header spelled rfl) (Bytes.ofText "\x7b\x7d") [0])
      refine ⟨_, rfl, Jws.parse_eq_ok.mpr ⟨_, ?_, made⟩⟩
      exact Jws.carries_joinDotted (Text.segments_encode [_, _, _])
  case foreign =>
      let bytes : Bytes := Bytes.ofText "\x7b\"alg\":\"HS256\",\"x\":\"" ++ 0xFF :: Bytes.ofText "\"\x7d"
      have foreign : Utf8.decode? bytes = none := by decide +kernel
      have decoded : decode (Base64Url.encode bytes) = .ok { alg := "HS256" } := ok_of_toOption (by decide +kernel)
      exact ⟨bytes, foreign, decoded⟩

end WebToken
