import Mathlib.Logic.Function.Basic
import Mathlib.Tactic.SplitIfs
import WebToken.Claims.Map
import WebToken.Claims.Policy
import WebToken.Claims.Standard
import WebToken.Proofs.Json.Members

/-!
Claims with a schema and claims without one show the same. The members of a text are put into a view one
after the other; each of the two readers takes the same step for a member, one when it reads the value and the
other when a rule asks for it.
-/

namespace WebToken

open Json (Body Ending Member Node Value)

namespace Instant

theorem seconds_of_ofSeconds? {seconds : Int} {instant : Instant} (told : ofSeconds? seconds = some instant) :
    instant.seconds = seconds := by
  rw [Instant.seconds, ofSeconds?_eq_some.mp told]
  exact Int.mul_ediv_cancel seconds (by decide)

theorem exists_ofValue? {value : Value} {instant : Instant} (told : ofValue? value = some instant) :
    ∃ seconds, ofSeconds? seconds = some instant := by
  unfold ofValue? at told
  split at told
  · obtain ⟨seconds, _, told⟩ := Option.bind_eq_some_iff.mp told
    exact ⟨seconds, told⟩
  · cases told

/-- A time is told again from its whole seconds. -/
theorem ofSeconds?_of_secondsOf? (value : Value) :
    (StandardClaims.secondsOf? value).bind ofSeconds? = ofValue? value := by
  rw [StandardClaims.secondsOf?]
  cases told : ofValue? value with
  | none => rfl
  | some instant =>
      obtain ⟨seconds, same⟩ := exists_ofValue? told
      rw [Option.map_some, Option.bind_some, seconds_of_ofSeconds? same, same]

end Instant

/-- What a claim may come back as: a registered one as its type, any other as a value that is not null. -/
inductive Claim.Coerced : String → Claim → Prop
  | text {name : String} (registered : name ∈ ["jti", "sub", "iss"]) (text : String) : Coerced name (.text text)
  | audience (audiences : List String) : Coerced "aud" (.audience audiences)
  | time {name : String} (registered : name ∈ ["exp", "nbf", "iat"]) (instant : Instant) : Coerced name (.time instant)
  | other {name : String} (unregistered : name ∉ ["jti", "sub", "iss", "aud", "exp", "nbf", "iat"]) {value : Value}
      (present : value ≠ .null) : Coerced name (.other value)

namespace Claim

theorem ofValue?_null (name : String) : ofValue? name .null = none := by
  unfold ofValue?
  repeat' split
  all_goals rfl

namespace Coerced

variable {name : String} {claim : Claim}

theorem of_map_text (registered : name ∈ ["jti", "sub", "iss"]) {text : Option String}
    (found : text.map Claim.text = some claim) : Coerced name claim := by
  obtain ⟨text, _, rfl⟩ := Option.map_eq_some_iff.mp found
  exact .text registered text

theorem of_map_audience {audiences : Option (List String)} (found : audiences.map Claim.audience = some claim) :
    Coerced "aud" claim := by
  obtain ⟨audiences, _, rfl⟩ := Option.map_eq_some_iff.mp found
  exact .audience audiences

theorem of_map_time (registered : name ∈ ["exp", "nbf", "iat"]) {instant : Option Instant}
    (found : instant.map Claim.time = some claim) : Coerced name claim := by
  obtain ⟨instant, _, rfl⟩ := Option.map_eq_some_iff.mp found
  exact .time registered instant

theorem of_ofValue? {value : Value} (found : ofValue? name value = some claim) : Coerced name claim := by
  unfold ofValue? at found
  split_ifs at found with text audience time
  · exact of_map_text (by simpa using text) found
  · exact audience ▸ of_map_audience found
  · exact of_map_time (by simpa using time) found
  · split at found
    · cases found
    · rename_i present
      obtain rfl := Option.some.inj found
      exact .other (by simp_all) present

end Coerced

end Claim

namespace ClaimView

/-- Puts a value under a name, as the claim that it is there. -/
def put (view : ClaimView) (name : String) (value : Value) : ClaimView :=
  Function.update view name (Claim.ofValue? name value)

def putAll (view : ClaimView) (entries : List (String × Value)) : ClaimView :=
  entries.foldl (fun view entry => view.put entry.1 entry.2) view

end ClaimView

namespace ClaimMap

theorem get_insert (claims : ClaimMap) (name : String) (value : Value) :
    (claims.insert name value).get = claims.get.put name value := by
  funext other
  rw [get, raw?, insert, Table.find?_insert, ClaimView.put, Function.update_apply]
  split
  · rename_i same
    rw [same]
    rfl
  · rfl

/-- The claims of an object are put one after the other, so the last of a name stays. -/
theorem get_ofEntries (entries : List (String × Value)) :
    (ClaimMap.mk (Table.ofEntries entries)).get = ClaimView.putAll (fun _ => none) entries := by
  suffices follows : ∀ claims : ClaimMap,
      (ClaimMap.mk (entries.foldl (fun table entry => table.insert entry.1 entry.2) claims.members)).get =
        claims.get.putAll entries from follows empty
  induction entries with
  | nil => exact fun _ => rfl
  | cons entry rest ih =>
      intro claims
      rw [List.foldl_cons, ClaimView.putAll, List.foldl_cons, ← get_insert]
      exact ih (claims.insert entry.1 entry.2)

theorem coerced {claims : ClaimMap} {name : String} {claim : Claim} (found : claims.get name = some claim) :
    Claim.Coerced name claim := by
  obtain ⟨value, _, given⟩ := Option.bind_eq_some_iff.mp found
  exact .of_ofValue? given

theorem get_null {claims : ClaimMap} {name : String} (null : claims.raw? name = some .null) :
    claims.get name = none := by
  rw [get, null, Option.bind_some, Claim.ofValue?_null]

end ClaimMap

namespace StandardClaims

/-- Reading a member puts the value that stands there under a name. -/
def Puts (name : String) (read : Node → Except Json.Fault (StandardClaims → StandardClaims)) : Prop :=
  ∀ node update, read node = .ok update →
    ∃ value, readInner node = .ok value ∧ ∀ claims, (update claims).get = claims.get.put name value

/-- A text that may be null is read where a value is one of the two. -/
theorem readInner_of_text {node : Node} {text : Option String} (read : Node.optional Node.text node = .ok text) :
    ∃ value, readInner node = .ok value ∧ value.string? = text ∧
      (value = .null ∨ ∃ found, value = .string found) := by
  unfold Node.optional at read
  split at read
  · cases read
    exact ⟨.null, rfl, rfl, .inl rfl⟩
  · obtain ⟨found, spelled, rfl⟩ := map_eq_ok.mp read
    unfold Node.text at spelled
    split at spelled
    · exact ⟨.string found, map_eq_ok.mpr ⟨found, spelled, rfl⟩, rfl, .inr ⟨found, rfl⟩⟩
    · cases spelled

section Fields

variable {name : String}

theorem puts_text {put : Option String → StandardClaims → StandardClaims} {kind : String → Claim}
    (shown : ∀ value, value = .null ∨ (∃ found, value = .string found) →
      Claim.ofValue? name value = value.string?.map kind)
    (stored : ∀ text claims, (put text claims).get = Function.update claims.get name (text.map kind)) :
    Puts name fun node => put <$> Node.optional Node.text node := by
  intro node update given
  obtain ⟨text, read, rfl⟩ := map_eq_ok.mp given
  obtain ⟨value, stands, rfl, plain⟩ := readInner_of_text read
  refine ⟨value, stands, fun claims => ?_⟩
  rw [stored, ClaimView.put, shown value plain]

theorem puts_value {put : Value → StandardClaims → StandardClaims}
    (stored : ∀ value claims, (put value claims).get = claims.get.put name value) :
    Puts name fun node => put <$> readInner node := by
  intro node update given
  obtain ⟨value, read, rfl⟩ := map_eq_ok.mp given
  exact ⟨value, read, stored value⟩

end Fields

/-- A time that was kept as seconds is the time that the value tells. -/
theorem time_secondsOf? {name : String} (timed : name ∈ ["exp", "nbf", "iat"]) (value : Value) :
    ((secondsOf? value).bind Instant.ofSeconds?).map Claim.time = Claim.ofValue? name value := by
  rw [Instant.ofSeconds?_of_secondsOf?]
  simp only [List.mem_cons, List.not_mem_nil, or_false] at timed
  rcases timed with rfl | rfl | rfl <;> rfl

theorem eq_update {claims after : StandardClaims} {name : String} {shown : Option Claim} (here : after.get name = shown)
    (others : ∀ other, other ≠ name → after.get other = claims.get other) :
    after.get = Function.update claims.get name shown :=
  Function.eq_update_iff.mpr ⟨here, others⟩

/-- Each field is put under its name, as the claim that the value is there. -/
theorem puts_field : ∀ field ∈ fields, Puts field.name field.read := by
  have scope : ∀ value, value = .null ∨ (∃ found, value = .string found) →
      Claim.ofValue? "scope" value = value.string?.map fun found => .other (.string found) := by
    rintro _ (rfl | ⟨found, rfl⟩) <;> rfl
  simp only [fields, List.forall_mem_cons, Member.of]
  refine ⟨puts_text (fun _ _ => rfl) fun text claims => eq_update rfl ?_,
    puts_text (fun _ _ => rfl) fun text claims => eq_update rfl ?_,
    puts_text (fun _ _ => rfl) fun text claims => eq_update rfl ?_,
    puts_value fun value claims => eq_update rfl ?_,
    puts_value fun value claims => eq_update (time_secondsOf? (by decide) value) ?_,
    puts_value fun value claims => eq_update (time_secondsOf? (by decide) value) ?_,
    puts_value fun value claims => eq_update (time_secondsOf? (by decide) value) ?_,
    puts_text scope fun text claims => eq_update rfl ?_, List.forall_mem_nil _⟩
  -- The claims under the other names are looked up as before.
  all_goals
    intro other differs
    simp only [get, differs, if_false]

/-- A claim that has no field is looked up among the others. -/
theorem get_of_unnamed {claims : StandardClaims} {name : String} (unnamed : ∀ field ∈ fields, name ≠ field.name) :
    claims.get name = (claims.extra.find? name).bind (Claim.ofValue? name) := by
  simp only [fields, List.forall_mem_cons, Member.of] at unnamed
  simp only [get, unnamed, if_false]

theorem puts_extra {name : String} (foreign : fields.find? (·.name == name) = none) : Puts name (readExtra name) := by
  have unnamed : ∀ field ∈ fields, name ≠ field.name := fun field present same => by
    simpa [same] using List.find?_eq_none.mp foreign field present
  intro node update given
  obtain ⟨value, read, rfl⟩ := map_eq_ok.mp given
  refine ⟨value, read, fun claims => eq_update ?_ fun other differs => ?_⟩
  · rw [get_of_unnamed unnamed, Table.find?_insert, if_pos rfl, Option.bind_some]
  · simp only [get, Table.find?_insert, differs, if_false]

theorem coerced {claims : StandardClaims} {name : String} {claim : Claim} (found : claims.get name = some claim) :
    Claim.Coerced name claim := by
  simp only [get] at found
  split_ifs at found with id subject issuer audience expiry begin issue scope
  · exact .of_map_text (by simp [id]) found
  · exact .of_map_text (by simp [subject]) found
  · exact .of_map_text (by simp [issuer]) found
  · exact audience ▸ .of_map_audience found
  · exact .of_map_time (by simp [expiry]) found
  · exact .of_map_time (by simp [begin]) found
  · exact .of_map_time (by simp [issue]) found
  · obtain ⟨text, _, rfl⟩ := Option.map_eq_some_iff.mp found
    exact scope ▸ .other (by decide) nofun
  · obtain ⟨value, _, given⟩ := Option.bind_eq_some_iff.mp found
    exact .of_ofValue? given

theorem get_null {claims : StandardClaims} {name : String} (unnamed : ∀ field ∈ fields, name ≠ field.name)
    (null : claims.extra.find? name = some .null) : claims.get name = none := by
  rw [get_of_unnamed unnamed, null, Option.bind_some, Claim.ofValue?_null]

theorem get_blank : ({} : StandardClaims).get = fun _ => none := by
  funext name
  unfold get
  repeat' split
  all_goals rfl

section Members

variable {rest : List (Body × Node)} {record final : StandardClaims}

/-- A member in front is put before all others. -/
theorem memberValues_cons {key : Body} {item : Node} {name : String}
    {read : Node → Except Json.Fault (StandardClaims → StandardClaims)} {update : StandardClaims → StandardClaims}
    (named : key.read = .ok name) (puts : Puts name read) (given : read item = .ok update)
    (others : ∃ entries, Node.memberValues (Node.maxDepth - 1) rest = .ok entries ∧
      final.get = (update record).get.putAll entries) :
    ∃ entries, Node.memberValues (Node.maxDepth - 1) ((key, item) :: rest) = .ok entries ∧
      final.get = record.get.putAll entries := by
  obtain ⟨value, stands, put⟩ := puts item update given
  obtain ⟨entries, valued, shown⟩ := others
  refine ⟨(name, value) :: entries, ?_, ?_⟩
  · rw [readInner] at stands
    rw [Node.memberValues, named, ok_bind, stands, ok_bind, valued]
    rfl
  · rw [shown, put, ClaimView.putAll, ClaimView.putAll, List.foldl_cons]

/-- Members that are read are put into a view one after the other. -/
theorem exists_memberValues {members : List (Body × Node)} {seen names : List String}
    (reading : Json.Record.Reading fields readExtra members seen record names final) :
    ∃ entries, Node.memberValues (Node.maxDepth - 1) members = .ok entries ∧
      final.get = record.get.putAll entries := by
  induction reading with
  | done => exact ⟨[], rfl, rfl⟩
  | unknown named foreign read _ ih => exact memberValues_cons named (puts_extra foreign) read ih
  | known named own _ read _ ih =>
      exact memberValues_cons named (puts_field _ (List.mem_of_find?_eq_some own)) read ih

end Members

/-- A text that is read with the schema is read without it, and shows the same. -/
theorem exists_claimMap {bytes : Bytes} {claims : StandardClaims} (given : ofBytes bytes = .ok claims) :
    ∃ map, ClaimMap.ofBytes bytes = .ok map ∧ map.get = claims.get := by
  obtain ⟨found, nothing⟩ := Json.read_eq_ok.mp given
  unfold StandardClaims.read at found
  split at found
  · rename_i members ending root
    obtain ⟨names, reading, _⟩ := Json.Record.reading_of_ofMembers found
    obtain ⟨entries, valued, shown⟩ := exists_memberValues reading
    have table : Node.table (.object members ending) = .ok (Table.ofEntries entries) := by
      rw [Node.table, valued, ok_bind, Json.Record.check_of_ofMembers found]
      rfl
    refine ⟨⟨Table.ofEntries entries⟩, Json.read_eq_ok.mpr ⟨?_, nothing⟩, ?_⟩
    · rw [root, ClaimMap.read, table]
      rfl
    · rw [ClaimMap.get_ofEntries, shown, get_blank]
  · cases found

/-- Claims are told alike with a schema and without one: a text that is read as the one is read as the other,
with the same claim under every name, so that rules, validators and policies come to the same verdict. A null
is an absent claim, and the registered claims come back as their types. -/
theorem agree_without_schema :
    (∀ bytes standard, StandardClaims.ofBytes bytes = .ok standard →
      ∃ map, ClaimMap.ofBytes bytes = .ok map ∧ (∀ name, map.get name = standard.get name) ∧
        (∀ name, map.raw? name = some .null → standard.get name = none) ∧
        (∀ clock rules, Rule.checkAll clock rules map.get = Rule.checkAll clock rules standard.get) ∧
        (∀ clock (validator : Validator), validator.validate clock map.get = validator.validate clock standard.get) ∧
        ∀ clock (policy : ClaimPolicy),
          policy.toValidator.validate clock map.get = policy.toValidator.validate clock standard.get) ∧
    (∀ (map : ClaimMap) name, (∀ claim, map.get name = some claim → Claim.Coerced name claim) ∧
      (map.raw? name = some .null → map.get name = none)) ∧
    ∀ (standard : StandardClaims) name, (∀ claim, standard.get name = some claim → Claim.Coerced name claim) ∧
      ((∀ field ∈ fields, name ≠ field.name) → standard.extra.find? name = some .null →
        standard.get name = none) := by
  refine ⟨?alike, ?mapped, ?standard⟩
  case alike =>
      intro bytes standard given
      obtain ⟨map, read, same⟩ := exists_claimMap given
      -- Rules, validators and policies see the view of the claims and nothing else of them.
      rw [← same]
      have null (name : String) (given : map.raw? name = some .null) : map.get name = none := ClaimMap.get_null given
      exact ⟨map, read, fun _ => rfl, null, fun _ _ => rfl, fun _ _ => rfl, fun _ _ => rfl⟩
  case mapped =>
      intro map name
      constructor
      · intro claim found
        exact ClaimMap.coerced found
      · intro null
        exact ClaimMap.get_null null
  case standard =>
      intro standard name
      constructor
      · intro claim found
        exact coerced found
      · intro unnamed null
        exact get_null unnamed null

/-- One audience, a time with a fraction, a time that is none, and nulls, one of them replaced. -/
def textWithNulls : Bytes :=
  Bytes.ofText "\x7b\"aud\":\"api\",\"exp\":10.75,\"nbf\":\"soon\",\"jti\":null,\"old\":1,\"old\":null\x7d"

theorem agree_without_schema_fractional :
    ∃ standard map, StandardClaims.ofBytes textWithNulls = .ok standard ∧ ClaimMap.ofBytes textWithNulls = .ok map ∧
      (map.get "aud").bind Claim.audience? = some ["api"] ∧
      (map.get "exp").bind Claim.time? = some ⟨10000000000, by decide⟩ ∧
      map.get "nbf" = none ∧ map.get "jti" = none ∧ map.get "old" = none ∧
      Rule.checkAll ⟨10000000001, by decide⟩ [.window 0 none] map.get = .error .expired := by
  have shown : ((StandardClaims.ofBytes textWithNulls).toOption.map fun claims =>
      ((claims.get "aud").bind Claim.audience?, (claims.get "exp").bind Claim.time?, (claims.get "nbf").isNone,
        (claims.get "jti").isNone, (claims.get "old").isNone)) =
      some (some ["api"], some ⟨10000000000, by decide⟩, true, true, true) := by decide +kernel
  obtain ⟨standard, present, found⟩ := Option.map_eq_some_iff.mp shown
  have given := ok_of_toOption present
  simp only [Prod.mk.injEq, Option.isNone_iff_eq_none] at found
  have expired : Rule.checkAll ⟨10000000001, by decide⟩ [.window 0 none] standard.get = .error .expired := by
    simp only [Rule.checkAll, List.forM, Rule.check, Rule.checkWindow, ClaimView.time?, found]
    rfl
  obtain ⟨map, read, same, _, verdict, _⟩ := agree_without_schema.1 textWithNulls standard given
  refine ⟨standard, map, given, read, ?_⟩
  simpa only [same, verdict, expired, and_true] using found

end StandardClaims

end WebToken
