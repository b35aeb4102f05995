import WebToken.Proofs.Claims.NumericDate
import WebToken.Proofs.Table

/-!
Claims with a schema as a value, and back. The typed members and the others share one object: no name stands there
twice, so each typed member is found again as what it was written from, and what is left are the others.
-/

namespace WebToken.StandardClaims

open Json (Value)

/-- The members that have a type, each with its value if it is present. -/
def typed (claims : StandardClaims) : List (String × Option Value) :=
  let seconds (value : Option Int) := value.map fun seconds => Value.number (.whole seconds)
  [("jti", claims.jti.map .string), ("sub", claims.sub.map .string), ("iss", claims.iss.map .string),
    ("aud", claims.aud.map audienceValue), ("exp", seconds claims.exp), ("nbf", seconds claims.nbf),
    ("iat", seconds claims.iat), ("scope", claims.scope.map .string)]

theorem entries_eq (claims : StandardClaims) :
    claims.entries = Table.present claims.typed ++ claims.extra.entries := rfl

theorem names_typed (claims : StandardClaims) : claims.typed.map (·.1) = fields.map (·.name) := rfl

section Members

variable {members : Table Value} {name : String}

theorem textMember?_eq_some {text : Option String} (found : members.find? name = text.map .string) :
    textMember? members name = some text := by
  rw [textMember?, found]
  cases text <;> rfl

theorem mapM_string? (texts : List String) : (texts.map Value.string).mapM Value.string? = some texts := by
  induction texts with
  | nil => rfl
  | cons text rest ih =>
      rw [List.map_cons, List.mapM_cons, ih]
      rfl

theorem audiencesOf?_audienceValue (audiences : List String) :
    Claim.audiencesOf? (audienceValue audiences) = some audiences := by
  unfold audienceValue
  split
  · rfl
  · exact mapM_string? _

/-- Seconds that can be told are told by the number that they are written as. -/
theorem secondsOf?_whole {seconds : Int} (first : Instant.firstSecond ≤ seconds) (last : seconds ≤ Instant.lastSecond) :
    secondsOf? (.number (.whole seconds)) = some seconds :=
  Instant.secondsOf?_eq_some.mpr ⟨.whole seconds, rfl, Int.floor_intCast seconds, first, last⟩

theorem bind_audiencesOf? {audiences : Option (List String)}
    (found : members.find? name = audiences.map audienceValue) :
    (members.find? name).bind Claim.audiencesOf? = audiences := by
  rw [found]
  cases audiences with
  | none => rfl
  | some audiences => exact audiencesOf?_audienceValue audiences

theorem bind_secondsOf? {seconds : Option Int}
    (told : ∀ second ∈ seconds, Instant.firstSecond ≤ second ∧ second ≤ Instant.lastSecond)
    (found : members.find? name = seconds.map fun seconds => .number (.whole seconds)) :
    (members.find? name).bind secondsOf? = seconds := by
  rw [found]
  cases seconds with
  | none => rfl
  | some second => exact secondsOf?_whole (told second rfl).1 (told second rfl).2

end Members

/-- Claims are read back from their value, whatever their audiences and their other members are, if their times can be
told and no other member has the name of a typed one. A single audience stands there as a text. -/
theorem ofValue?_toValue (claims : StandardClaims)
    (untyped : ∀ entry ∈ claims.extra, ∀ field ∈ fields, entry.1 ≠ field.name)
    (told : ∀ times ∈ [claims.exp, claims.nbf, claims.iat], ∀ second ∈ times,
      Instant.firstSecond ≤ second ∧ second ≤ Instant.lastSecond) :
    ofValue? claims.toValue = some claims ∧
    ∀ audience, claims.aud = some [audience] → ∃ members : Table Value,
      claims.toValue = .object members.entries ∧ members.find? "aud" = some (.string audience) := by
  have distinct : (claims.typed.map (·.1)).Nodup := by
    rw [names_typed]
    decide
  have apart : ∀ other ∈ claims.extra, other.1 ∉ claims.typed.map (·.1) := by
    intro other there named
    obtain ⟨field, known, same⟩ := List.mem_map.mp (names_typed claims ▸ named)
    exact untyped other there field known same.symm
  have found := Table.find?_of_slot distinct apart
  -- The reader takes for other members what no field is named for, and the fields are named as the slots.
  have isTyped (name : String) : fields.any (·.name == name) = true ↔ name ∈ claims.typed.map (·.1) := by
    rw [names_typed, List.any_eq_true, List.mem_map]
    simp only [beq_iff_eq]
  have others := Table.filter_ofEntries distinct apart isTyped
  rw [← entries_eq] at found others
  simp only [typed, List.forall_mem_cons] at found
  simp only [List.forall_mem_cons] at told
  obtain ⟨jti, sub, iss, aud, exp, nbf, iat, scope, -⟩ := found
  obtain ⟨expTold, nbfTold, iatTold, -⟩ := told
  constructor
  · rw [toValue, ofValue?, Table.ofEntries_entries, textMember?_eq_some jti, textMember?_eq_some sub,
      textMember?_eq_some iss, textMember?_eq_some scope]
    simp only [Option.bind_eq_bind, Option.bind_some, Option.pure_def, bind_audiencesOf? aud,
      bind_secondsOf? expTold exp, bind_secondsOf? nbfTold nbf, bind_secondsOf? iatTold iat, others]
  · intro audience single
    refine ⟨_, rfl, ?_⟩
    rw [aud, single]
    rfl

/-- Claims with the first and the last second, a single audience that is empty, and a null among the others. -/
def claimsAtBothBounds : StandardClaims where
  aud := some [""]
  exp := some 8210266876799
  nbf := some (-8334601228800)
  scope := some ""
  extra := .ofEntries [("nonce", .null), ("amr", .array [])]

theorem ofValue?_toValue_extreme :
    claimsAtBothBounds.toValue =
      .object [("amr", .array []), ("aud", .string ""), ("exp", .number (.whole 8210266876799)),
        ("nbf", .number (.whole (-8334601228800))), ("nonce", .null), ("scope", .string "")] ∧
    ofValue? claimsAtBothBounds.toValue = some claimsAtBothBounds ∧
    ∃ members : Table Value, claimsAtBothBounds.toValue = .object members.entries ∧
      members.find? "aud" = some (.string "") := by
  obtain ⟨restored, single⟩ := ofValue?_toValue claimsAtBothBounds (by decide) (by decide)
  exact ⟨rfl, restored, single "" rfl⟩

end WebToken.StandardClaims
