import WebToken.Proofs.Claims.Policy
import WebToken.Proofs.Claims.RoundTrip
import WebToken.Proofs.Text.Words

/-!
Rules that ask for a set. The audiences that a token names and the scopes that it grants count as sets, and so do those
that a rule asks for: all that matters is that each one asked for is there, as a whole.
-/

namespace WebToken

open Json (Value)
open Text (IsWord)

/-- The audiences that a value names: a text is a single one, and a list names audiences if all its items are texts. -/
inductive Claim.Names : Value → List String → Prop
  | single (audience : String) : Names (.string audience) [audience]
  | several (audiences : List String) : Names (.array (audiences.map .string)) audiences

namespace Claim

variable {items : List Value} {value : Value} {audiences : List String}

theorem eq_map_of_mapM_string? (given : items.mapM Value.string? = some audiences) : items = audiences.map .string := by
  induction items generalizing audiences with
  | nil =>
      cases given
      rfl
  | cons item rest ih =>
      rw [List.mapM_cons, Option.bind_eq_bind, Option.bind_eq_some_iff] at given
      obtain ⟨text, first, given⟩ := given
      obtain ⟨texts, others, same⟩ := Option.bind_eq_some_iff.mp given
      obtain rfl := Option.some.inj same
      cases item <;> cases first
      rw [List.map_cons, ← ih others]

theorem audiencesOf?_eq_some : audiencesOf? value = some audiences ↔ Names value audiences := by
  constructor
  · intro given
    unfold audiencesOf? at given
    split at given
    case h_1 single => exact Option.some.inj given ▸ .single single
    case h_2 items => exact eq_map_of_mapM_string? given ▸ .several audiences
    case h_3 => cases given
  · intro named
    cases named with
    | single audience => rfl
    | several audiences => exact StandardClaims.mapM_string? audiences

end Claim

namespace ClaimView

/-- A scope is granted as a word of the scope claim. -/
def Grants (claims : ClaimView) (scope : String) : Prop :=
  ∃ text, claims.text? "scope" = some text ∧ IsWord scope text

/-- The audiences of claims are among those of other claims. -/
def AudienceWithin (claims wider : ClaimView) : Prop :=
  ∀ audiences, claims.audience? "aud" = some audiences →
    ∃ others, wider.audience? "aud" = some others ∧ audiences ⊆ others

/-- The scopes of claims are among those of other claims. -/
def ScopeWithin (claims wider : ClaimView) : Prop := ∀ scope, claims.Grants scope → wider.Grants scope

end ClaimView

namespace ClaimMap

variable {claims : ClaimMap} {audiences : List String} {text : String}

theorem audience?_get : claims.get.audience? "aud" = some audiences ↔
    ∃ value, claims.raw? "aud" = some value ∧ Claim.Names value audiences := by
  have coerced (value : Value) : (Claim.ofValue? "aud" value).bind Claim.audience? = Claim.audiencesOf? value := by
    show ((Claim.audiencesOf? value).map Claim.audience).bind Claim.audience? = Claim.audiencesOf? value
    cases Claim.audiencesOf? value <;> rfl
  simp only [ClaimView.audience?, get, Option.bind_assoc, coerced, Option.bind_eq_some_iff, Claim.audiencesOf?_eq_some]

theorem text?_get : claims.get.text? "scope" = some text ↔ claims.raw? "scope" = some (.string text) := by
  have coerced (value : Value) : (Claim.ofValue? "scope" value).bind Claim.text? = value.string? := by
    cases value <;> rfl
  have spelled (value : Value) : value.string? = some text ↔ value = .string text := by
    cases value <;> simp [Value.string?]
  simp only [ClaimView.text?, get, Option.bind_assoc, coerced, Option.bind_eq_some_iff, spelled, exists_eq_right]

theorem grants_get {scope : String} :
    claims.get.Grants scope ↔ ∃ text, claims.raw? "scope" = some (.string text) ∧ IsWord scope text := by
  simp only [ClaimView.Grants, text?_get]

theorem raw?_insert_self {name : String} {value : Value} : (claims.insert name value).raw? name = some value := by
  rw [raw?, insert, Table.find?_insert, if_pos rfl]

theorem audienceWithin_insert {value wider : Value} {others : List String} (present : claims.raw? "aud" = some value)
    (named : Claim.Names value audiences) (renamed : Claim.Names wider others) (all : audiences ⊆ others) :
    claims.get.AudienceWithin (claims.insert "aud" wider).get := by
  intro shown found
  rw [audience?_get.mpr ⟨value, present, named⟩, Option.some.injEq] at found
  exact ⟨others, audience?_get.mpr ⟨wider, raw?_insert_self, renamed⟩, found ▸ all⟩

theorem scopeWithin_insert {wider : String} (present : claims.raw? "scope" = some (.string text))
    (all : ∀ scope, IsWord scope text → IsWord scope wider) :
    claims.get.ScopeWithin (claims.insert "scope" (.string wider)).get := by
  intro scope granted
  obtain ⟨found, shown, spelled⟩ := grants_get.mp granted
  rw [present, Option.some.injEq, Value.string.injEq] at shown
  exact grants_get.mpr ⟨wider, raw?_insert_self, all scope (shown ▸ spelled)⟩

end ClaimMap

namespace StandardClaims

variable {claims : StandardClaims}

theorem audience?_get : claims.get.audience? "aud" = claims.aud := by
  show (claims.aud.map Claim.audience).bind Claim.audience? = claims.aud
  cases claims.aud <;> rfl

theorem text?_get : claims.get.text? "scope" = claims.scope := by
  show (claims.scope.map fun scope => Claim.other (.string scope)).bind Claim.text? = claims.scope
  cases claims.scope <;> rfl

end StandardClaims

namespace Rule

variable {clock : Instant} {claims wider : ClaimView} {expected fewer : List String}

theorem decides_grants (required : List String) :
    Decides [⟨∀ scope ∈ required, claims.Grants scope, .scope⟩] (check clock claims (.scopes required)) := by
  simpa only [ClaimView.Grants, Text.mem_words] using decides_scopes required

theorem check_audience_mono (within : claims.AudienceWithin wider) (among : fewer ⊆ expected)
    (accepted : check clock claims (.audience expected) = .ok ()) : check clock wider (.audience fewer) = .ok () := by
  simp only [(decides_audience _).accepts, List.forall_mem_singleton] at accepted ⊢
  obtain ⟨audiences, found, all⟩ := accepted
  obtain ⟨others, shown, more⟩ := within audiences found
  exact ⟨others, shown, fun audience asked => more (all audience (among asked))⟩

theorem check_scopes_mono (within : claims.ScopeWithin wider) (among : fewer ⊆ expected)
    (accepted : check clock claims (.scopes expected) = .ok ()) : check clock wider (.scopes fewer) = .ok () := by
  simp only [(decides_grants _).accepts, List.forall_mem_singleton] at accepted ⊢
  exact fun scope asked => within scope (accepted scope (among asked))

/-- White space is around the words of a text, never in them, and no word is empty. -/
theorem not_grants {scope : String} (blank : scope = "" ∨ ∃ c ∈ scope.toList, Text.isBlank c = true) :
    ¬claims.Grants scope := by
  rintro ⟨text, _, spelled⟩
  obtain ⟨nonempty, solid⟩ := spelled.solid
  rcases blank with empty | ⟨c, inside, blanks⟩
  · exact nonempty empty
  · exact absurd blanks (by simp [solid c inside])

theorem check_scopes_eq_error {scope : String} {required : List String} (asked : scope ∈ required)
    (missing : ¬claims.Grants scope) : check clock claims (.scopes required) = .error .scope :=
  ((decides_grants required).refuses _).mpr (.here fun met => missing (met scope asked))

/-- Audiences and scopes are asked for as sets: a rule accepts if each of those that it asks for is there, and a claim
that does not have the form for it gives none. -/
structure AsksForSets (clock : Instant) : Prop where
  audience : ∀ (claims : ClaimView) (expected : List String),
    Decides [⟨∃ audiences, claims.audience? "aud" = some audiences ∧ ∀ audience ∈ expected, audience ∈ audiences,
      .audience⟩] (check clock claims (.audience expected))
  scopes : ∀ (claims : ClaimView) (expected : List String),
    Decides [⟨∀ scope ∈ expected, claims.Grants scope, .scope⟩] (check clock claims (.scopes expected))
  mapAudience : ∀ (claims : ClaimMap) audiences, claims.get.audience? "aud" = some audiences ↔
    ∃ value, claims.raw? "aud" = some value ∧ Claim.Names value audiences
  mapScopes : ∀ (claims : ClaimMap) scope, claims.get.Grants scope ↔
    ∃ text, claims.raw? "scope" = some (.string text) ∧ IsWord scope text
  standardAudience : ∀ claims : StandardClaims, claims.get.audience? "aud" = claims.aud
  standardScopes : ∀ (claims : StandardClaims) scope, claims.get.Grants scope ↔
    ∃ text, claims.scope = some text ∧ IsWord scope text
  /-- Nobody who is accepted is refused for more audiences, or by a rule that asks for fewer. -/
  fewerAudiences : ∀ (claims wider : ClaimView) (fewer expected : List String), fewer ⊆ expected →
    claims.AudienceWithin wider → check clock claims (.audience expected) = .ok () →
      check clock wider (.audience fewer) = .ok ()
  fewerScopes : ∀ (claims wider : ClaimView) (fewer expected : List String), fewer ⊆ expected →
    claims.ScopeWithin wider → check clock claims (.scopes expected) = .ok () →
      check clock wider (.scopes fewer) = .ok ()
  /-- Neither order nor repetition makes a difference. -/
  sameAudiences : ∀ (claims other : ClaimView) (expected others : List String), expected ⊆ others → others ⊆ expected →
    claims.AudienceWithin other → other.AudienceWithin claims →
      check clock claims (.audience expected) = check clock other (.audience others)
  sameScopes : ∀ (claims other : ClaimView) (expected others : List String), expected ⊆ others → others ⊆ expected →
    claims.ScopeWithin other → other.ScopeWithin claims →
      check clock claims (.scopes expected) = check clock other (.scopes others)
  addedAudiences : ∀ (claims : ClaimMap) value audiences wider others, claims.raw? "aud" = some value →
    Claim.Names value audiences → Claim.Names wider others → audiences ⊆ others →
      claims.get.AudienceWithin (claims.insert "aud" wider).get
  addedScopes : ∀ (claims : ClaimMap) text wider, claims.raw? "scope" = some (.string text) →
    (∀ scope, IsWord scope text → IsWord scope wider) →
      claims.get.ScopeWithin (claims.insert "scope" (.string wider)).get
  /-- What is not a word is never granted. -/
  blank : ∀ (claims : ClaimView) (required : List String), ∀ scope ∈ required,
    (scope = "" ∨ ∃ c ∈ scope.toList, Text.isBlank c = true) → check clock claims (.scopes required) = .error .scope

theorem check_sets (clock : Instant) : AsksForSets clock := by
  constructor
  case audience => exact fun _ expected => decides_audience expected
  case scopes => exact fun _ expected => decides_grants expected
  case mapAudience => exact fun _ _ => ClaimMap.audience?_get
  case mapScopes => exact fun _ _ => ClaimMap.grants_get
  case standardAudience => exact fun _ => StandardClaims.audience?_get
  case standardScopes =>
      intro claims scope
      rw [ClaimView.Grants, StandardClaims.text?_get]
  case fewerAudiences =>
      intro claims wider fewer expected among within
      exact check_audience_mono within among
  case fewerScopes =>
      intro claims wider fewer expected among within
      exact check_scopes_mono within among
  -- Sameness is inclusion both ways.
  case sameAudiences =>
      intro claims other expected others among back within around
      refine (decides_audience expected).eq_of_accepts (decides_audience others) ⟨?_, ?_⟩
      · exact check_audience_mono within back
      · exact check_audience_mono around among
  case sameScopes =>
      intro claims other expected others among back within around
      refine (decides_grants expected).eq_of_accepts (decides_grants others) ⟨?_, ?_⟩
      · exact check_scopes_mono within back
      · exact check_scopes_mono around among
  case addedAudiences =>
      intro claims value audiences wider others present named renamed all
      exact ClaimMap.audienceWithin_insert present named renamed all
  case addedScopes =>
      intro claims text wider present all
      exact ClaimMap.scopeWithin_insert present all
  case blank =>
      intro claims required scope asked blank
      exact check_scopes_eq_error asked (not_grants blank)

/-- Claims with an audience that stands twice, and with two scopes that a wide space keeps apart. -/
def claimsWithTwoScopes : ClaimMap :=
  (ClaimMap.empty.insert "aud" (.array [.string "api", .string "web", .string "api"])).insert "scope"
    (.string "read\u2003write")

theorem check_sets_repeated :
    let clock : Instant := ⟨3000000000, by decide⟩
    let claims := claimsWithTwoScopes
    let mailed := claims.insert "aud" (.array [.string "mail", .string "web", .string "api"])
    let trusted := claims.insert "scope" (.string "read\u2003write admin")
    check clock claims.get (.audience ["web", "api"]) = .ok () ∧
      check clock claims.get (.audience ["web", "api"]) = check clock claims.get (.audience ["api", "web", "web"]) ∧
      check clock mailed.get (.audience ["api"]) = .ok () ∧
      check clock claims.get (.scopes ["write", "read"]) = .ok () ∧
      check clock trusted.get (.scopes ["read"]) = .ok () ∧
      check clock claims.get (.scopes ["rea"]) = .error .scope ∧
      check clock claims.get (.scopes ["read", "read\u2003write"]) = .error .scope := by
  intro clock claims mailed trusted
  have sets : AsksForSets clock := check_sets clock
  have accepted : check clock claims.get (.audience ["web", "api"]) = .ok () := rfl
  have granted : check clock claims.get (.scopes ["write", "read"]) = .ok () := rfl
  refine ⟨accepted, ?repeated, ?mailed, granted, ?trusted, rfl, ?blank⟩
  case repeated =>
      have itself : claims.get.AudienceWithin claims.get := fun audiences found =>
        ⟨audiences, found, List.Subset.refl _⟩
      exact sets.sameAudiences claims.get claims.get ["web", "api"] ["api", "web", "web"] (by decide) (by decide) itself
        itself
  case mailed =>
      have named : Claim.Names (.array [.string "api", .string "web", .string "api"]) ["api", "web", "api"] :=
        .several ["api", "web", "api"]
      have renamed : Claim.Names (.array [.string "mail", .string "web", .string "api"]) ["mail", "web", "api"] :=
        .several ["mail", "web", "api"]
      have within : claims.get.AudienceWithin mailed.get :=
        sets.addedAudiences claims _ _ _ _ rfl named renamed (by decide)
      exact sets.fewerAudiences claims.get mailed.get ["api"] ["web", "api"] (by decide) within accepted
  case trusted =>
      have spaced : "read\u2003write admin" = "read\u2003write" ++ String.singleton ' ' ++ "admin" := by decide
      have within : claims.get.ScopeWithin trusted.get := by
        refine sets.addedScopes claims "read\u2003write" _ rfl fun scope spelled => ?_
        rw [spaced]
        exact (Text.isWord_append rfl).mpr (Or.inl spelled)
      exact sets.fewerScopes claims.get trusted.get ["read"] ["write", "read"] (by decide) within granted
  case blank =>
      exact sets.blank claims.get _ "read\u2003write" (by decide) (Or.inr ⟨'\u2003', by decide, rfl⟩)

end Rule

end WebToken
