import WebToken.Header
import WebToken.Proofs.Key.Document

/-!
Headers: the segment that a header travels as is decoded to the header, and any other segment is refused
for what is wrong with it. The other parts of a token are refused for the first one that is no base64url
text.
-/

namespace WebToken

/-- The first part that is no base64url text, and the flaw that it is reported as. -/
inductive PartRefused : List (String × String) → TokenFlaw → Prop
  | here {name text : String} {others : List (String × String)} (foreign : ∀ bytes, text ≠ Base64Url.encode bytes) :
      PartRefused ((name, text) :: others) (.notBase64 name)
  | later {name : String} {others : List (String × String)} {flaw : TokenFlaw} (bytes : Bytes)
      (refused : PartRefused others flaw) : PartRefused ((name, Base64Url.encode bytes) :: others) flaw

theorem partBytes_eq_ok {name text : String} {bytes : Bytes} :
    partBytes name text = .ok bytes ↔ text = Base64Url.encode bytes := by
  rw [partBytes, require_eq_ok, Base64Url.decode?_eq_some_iff]

theorem partBytes_eq_error {name text : String} {flaw : TokenFlaw} :
    partBytes name text = .error flaw ↔ (∀ bytes, text ≠ Base64Url.encode bytes) ∧ .notBase64 name = flaw := by
  rw [partBytes, require_eq_error, Base64Url.decode?_eq_none_iff]

/-- Parts that are read one after the other are refused for the first of them that cannot be read. -/
theorem partBytes_bind_eq_error {α : Type} {name text : String} {others : List (String × String)} {flaw : TokenFlaw}
    {next : Bytes → Except TokenFlaw α} (rest : ∀ bytes, next bytes = .error flaw ↔ PartRefused others flaw) :
    (partBytes name text >>= next) = .error flaw ↔ PartRefused ((name, text) :: others) flaw := by
  rw [bind_eq_error, partBytes_eq_error]
  simp only [partBytes_eq_ok, rest]
  constructor
  · rintro (⟨foreign, rfl⟩ | ⟨bytes, rfl, refused⟩)
    · exact .here foreign
    · exact .later bytes refused
  · intro refused
    cases refused with
    | here foreign => exact Or.inl ⟨foreign, rfl⟩
    | later bytes refused => exact Or.inr ⟨bytes, rfl, refused⟩

namespace Header

open Json

def slots (header : Header) : List (String × Option (List Char)) :=
  [("alg", some (Text.quote header.alg)), ("enc", header.enc.map Text.quote),
    ("kid", header.kid.map Text.quote), ("typ", header.typ.map Text.quote),
    ("cty", header.cty.map Text.quote), ("epk", header.epk.map Jwk.write),
    ("apu", header.apu.map Text.quote), ("apv", header.apv.map Text.quote),
    ("iv", header.iv.map Text.quote), ("tag", header.tag.map Text.quote),
    ("p2s", header.p2s.map Text.quote), ("p2c", header.p2c.map fun (count : Nat) => Text.whole count),
    ("crit", header.crit.map fun names => Text.list (names.map Text.quote))]

theorem entries_eq (header : Header) : header.entries = given header.slots := rfl

/-- The count of a header fits 32 bits. -/
def Counted (header : Header) : Prop := ∀ count, header.p2c = some count → count < Nat.pow 2 32

theorem reads_count {count : Nat} (bound : count < Nat.pow 2 32) :
    Reads readCount (Text.whole count) count := by
  have least : (0 : Int) ≤ count := Int.natCast_nonneg count
  have most : (count : Int) ≤ Nat.pow 2 32 - 1 := by
    rw [Nat.pow_eq] at bound ⊢
    omega
  exact (Reads.wholeBetween least most (by decide)).map Int.toNat

theorem writes {header : Header} (counted : header.Counted) :
    Writes (fields Jwk.read) header.slots {} header := by
  unfold fields slots
  refine .of (.text header.alg) ?_
  dsimp only
  iterate 4
    refine .optional ?_ ?_ ?_
    · exact fun value _ => .text value
    · rfl
    dsimp only
  refine .optional ?_ ?_ ?_
  · exact fun jwk _ => jwk.reads
  · rfl
  dsimp only
  iterate 5
    refine .optional ?_ ?_ ?_
    · exact fun value _ => .text value
    · rfl
    dsimp only
  refine .optional ?_ ?_ ?_
  · exact fun count there => reads_count (counted count there)
  · rfl
  dsimp only
  refine .optional ?_ ?_ ?_
  · exact fun names _ => .list names fun name _ => .text name
  · rfl
  exact .nil header

theorem ofText_toText {header : Header} (counted : header.Counted) : ofText header.toText = .ok header := by
  obtain ⟨node, spelled, found, _⟩ := (writes counted).read (by decide) Record.skipOther
  rw [ofText, toText, Bytes.ofText_ofList, entries_eq, spelled.read]
  exact found

/-- The segment of a header that calls nothing critical is decoded to the header. -/
theorem decode_encode {header : Header} (counted : header.Counted) (nothingCritical : header.crit = none) :
    decode header.encode = .ok header := by
  have read : Json.read Header.read (Bytes.ofText header.toText) = .ok header := ofText_toText counted
  rw [decode, encode, Base64Url.decode?_encode, require, ok_bind, mapError_eq_ok.mpr read, ok_bind,
    checkCritical, nothingCritical]
  rfl

/-- The segment is the base64url text of a document that is read as the header. -/
def Spelled (segment : String) (header : Header) : Prop :=
  ∃ bytes, segment = Base64Url.encode bytes ∧ Json.read read bytes = .ok header

/-- Why the segment of a header is refused. -/
inductive Refused (segment : String) : TokenFlaw → Prop
  | notBase64 (foreign : ∀ bytes, segment ≠ Base64Url.encode bytes) : Refused segment .headerNotBase64
  | notObject {bytes : Bytes} {fault : Json.Fault} (written : segment = Base64Url.encode bytes)
      (unread : Json.read read bytes = .error fault) : Refused segment .headerNotObject
  | critical {header : Header} {names : List String} (spelled : Spelled segment header)
      (demanded : header.crit = some names) : Refused segment (.critical names)

variable {segment : String} {header : Header} {flaw : TokenFlaw} {names : List String}

theorem checkCritical_eq_ok : header.checkCritical = .ok () ↔ header.crit = none := by
  cases demanded : header.crit <;> simp [checkCritical, demanded]

theorem checkCritical_eq_error :
    header.checkCritical = .error flaw ↔ ∃ names, header.crit = some names ∧ .critical names = flaw := by
  cases demanded : header.crit <;> simp [checkCritical, demanded]

theorem decode_eq_ok : decode segment = .ok header ↔ Spelled segment header ∧ header.crit = none := by
  simp only [decode, bind_eq_ok, require_eq_ok, Base64Url.decode?_eq_some_iff, mapError_eq_ok]
  constructor
  · rintro ⟨bytes, written, found, read, ⟨⟩, uncritical, returned⟩
    obtain rfl := Except.ok.inj returned
    exact ⟨⟨bytes, written, read⟩, checkCritical_eq_ok.mp uncritical⟩
  · rintro ⟨⟨bytes, written, read⟩, uncritical⟩
    exact ⟨bytes, written, header, read, (), checkCritical_eq_ok.mpr uncritical, rfl⟩

theorem decode_eq_error : decode segment = .error flaw ↔ Refused segment flaw := by
  simp only [decode, bind_eq_error, require_eq_ok, require_eq_error, Base64Url.decode?_eq_some_iff,
    Base64Url.decode?_eq_none_iff, mapError_eq_ok, mapError_eq_error, checkCritical_eq_error]
  constructor
  · rintro (⟨foreign, rfl⟩ | ⟨bytes, written, refused⟩)
    · exact .notBase64 foreign
    · rcases refused with ⟨fault, unread, rfl⟩ | ⟨header, read, ⟨names, demanded, rfl⟩ | ⟨_, _, done⟩⟩
      · exact .notObject written unread
      · exact .critical ⟨bytes, written, read⟩ demanded
      · cases done
  · intro refused
    cases refused with
    | notBase64 foreign => exact Or.inl ⟨foreign, rfl⟩
    | notObject written unread => exact Or.inr ⟨_, written, Or.inl ⟨_, unread, rfl⟩⟩
    | critical spelled demanded =>
        obtain ⟨bytes, written, read⟩ := spelled
        exact Or.inr ⟨bytes, written, Or.inr ⟨_, read, Or.inl ⟨_, demanded, rfl⟩⟩⟩

theorem refused_critical_iff :
    Refused segment (.critical names) ↔ ∃ header, Spelled segment header ∧ header.crit = some names := by
  constructor
  · rintro ⟨⟩
    exact ⟨_, ‹_›, ‹_›⟩
  · rintro ⟨header, spelled, demanded⟩
    exact .critical spelled demanded

end Header

end WebToken
