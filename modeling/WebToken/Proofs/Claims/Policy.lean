import WebToken.Claims.Policy
import WebToken.Proofs.Claims.Window

/-!
The verdict of a policy: what it asks of claims, in one list, and that its validator decides exactly this. A
member of the policy that is empty asks for nothing.
-/

namespace WebToken

namespace Rule

variable {clock : Instant} {claims : ClaimView} {rule : Rule}

theorem decides_issuer (expected : String) :
    Decides [⟨claims.text? "iss" = some expected, .issuer⟩] (check clock claims (.issuer expected)) :=
  .of_require beq_iff_eq

theorem decides_audience (expected : List String) :
    Decides [⟨∃ audiences, claims.audience? "aud" = some audiences ∧ ∀ audience ∈ expected, audience ∈ audiences,
      .audience⟩] (check clock claims (.audience expected)) := by
  refine .of_require ?_
  simp only [Option.any_eq_true, List.all_eq_true, List.contains_iff_mem]

theorem decides_subject (expected : String) :
    Decides [⟨claims.text? "sub" = some expected, .subject⟩] (check clock claims (.subject [expected])) := by
  refine .of_require ?_
  simp [Option.any_eq_true]

theorem mem_granted {scope : String} :
    scope ∈ granted claims ↔ ∃ text, claims.text? "scope" = some text ∧ scope ∈ Text.words text := by
  unfold granted
  cases claims.text? "scope" <;> simp

theorem decides_scopes (required : List String) :
    Decides [⟨∀ scope ∈ required, ∃ text, claims.text? "scope" = some text ∧ scope ∈ Text.words text, .scope⟩]
      (check clock claims (.scopes required)) := by
  refine .of_require ?_
  simp only [List.all_eq_true, List.contains_iff_mem, mem_granted]

theorem decides_tokenId :
    Decides [⟨∃ id, claims.text? "jti" = some id ∧ id ≠ "", .absentId⟩] (check clock claims .tokenId) := by
  refine .of_require ?_
  simp [Option.any_eq_true]

theorem checkAll_singleton (rule : Rule) : checkAll clock [rule] claims = rule.check clock claims := by
  rw [checkAll_cons]
  cases rule.check clock claims <;> rfl

/-- A rule that is switched off asks for nothing. -/
theorem decides_unless {off : Bool} {met asked : Prop} {violation : Violation} (agree : asked ↔ off = true ∨ met)
    (decided : Decides [⟨met, violation⟩] (rule.check clock claims)) :
    Decides [⟨asked, violation⟩] (checkAll clock (if off then [] else [rule]) claims) := by
  cases off with
  | true =>
      have passed : Decides [⟨asked, violation⟩] (require true violation) := .of_require (by simp [agree])
      exact passed
  | false =>
      have same : asked = met := propext (by simpa using agree)
      rw [same, if_neg Bool.false_ne_true, checkAll_singleton]
      exact decided

theorem decides_append {rules others : List Rule} {demands further : List Demand}
    (first : Decides demands (checkAll clock rules claims)) (second : Decides further (checkAll clock others claims)) :
    Decides (demands ++ further) (checkAll clock (rules ++ others) claims) := by
  rw [checkAll_append]
  exact first.andThen second

end Rule

namespace ClaimPolicy

/-- What a policy asks of claims at an instant, in its order. -/
def demands (policy : ClaimPolicy) (now : Instant) (claims : ClaimView) : List Demand :=
  [⟨policy.issuer = "" ∨ claims.text? "iss" = some policy.issuer, .issuer⟩] ++
    Rule.timeDemands (|policy.leeway| * nanosecondsPerSecond) now claims ++
    [⟨policy.audience = [] ∨ ∃ audiences, claims.audience? "aud" = some audiences ∧
      ∀ audience ∈ policy.audience, audience ∈ audiences, .audience⟩] ++
    [⟨policy.subject = "" ∨ claims.text? "sub" = some policy.subject, .subject⟩] ++
    [⟨∀ scope ∈ policy.scopes, ∃ text, claims.text? "scope" = some text ∧ scope ∈ Text.words text, .scope⟩] ++
    [⟨policy.requireId = true → ∃ id, claims.text? "jti" = some id ∧ id ≠ "", .absentId⟩]

/-- A leeway that is too long to be counted is longer than any two instants are apart, and so is the longest
duration. -/
theorem le_tolerance_iff (policy : ClaimPolicy) (instant base : Instant) :
    instant.nanoseconds ≤ base.nanoseconds + |policy.tolerance.nanoseconds| ↔
      instant.nanoseconds ≤ base.nanoseconds + |policy.leeway| * nanosecondsPerSecond := by
  unfold tolerance
  cases counted : Duration.ofSeconds? policy.leeway with
  | some duration =>
      have same : duration.nanoseconds = policy.leeway * nanosecondsPerSecond :=
        Duration.ofNanoseconds?_eq_some.mp counted
      rw [Option.getD_some, same, Int.abs_eq_natAbs, Int.abs_eq_natAbs, Int.natAbs_mul, Int.natAbs_natCast,
        Int.natCast_mul]
  | none =>
      have beyond : Duration.limit < (policy.leeway * nanosecondsPerSecond).natAbs :=
        Duration.ofNanoseconds?_eq_none.mp counted
      have least := base.told
      have most := instant.told
      simp only [Instant.Told, Instant.firstSecond, Instant.lastSecond, nanosecondsPerSecond] at least most
      simp only [Duration.limit, nanosecondsPerSecond] at beyond
      simp only [Option.getD_none, Duration.longest, Duration.limit, nanosecondsPerSecond, Int.abs_eq_natAbs]
      omega

theorem decides_toValidator (policy : ClaimPolicy) (now : Instant) (claims : ClaimView) :
    Decides (policy.demands now claims) (policy.toValidator.validate now claims) := by
  rw [Rule.validate_eq_checkAll, toValidator, rules, demands]
  -- The rules and the demands are put together alike, the last ones first to come apart.
  refine Rule.decides_append ?_ ?tokenId
  refine Rule.decides_append ?_ ?scopes
  refine Rule.decides_append ?_ ?subject
  refine Rule.decides_append ?_ ?audience
  refine Rule.decides_append ?issuer ?window
  case issuer => exact Rule.decides_unless (or_congr_left String.isEmpty_iff.symm) (Rule.decides_issuer _)
  case window =>
      rw [Rule.checkAll_singleton]
      exact Rule.decides_checkWindow (le_tolerance_iff policy)
  case audience => exact Rule.decides_unless (or_congr_left List.isEmpty_iff.symm) (Rule.decides_audience _)
  case subject => exact Rule.decides_unless (or_congr_left String.isEmpty_iff.symm) (Rule.decides_subject _)
  case scopes =>
      refine Rule.decides_unless ?_ (Rule.decides_scopes _)
      constructor
      · exact Or.inr
      · rintro (empty | granted)
        · simp [List.isEmpty_iff.mp empty]
        · exact granted
  case tokenId =>
      have switched :
          (if policy.requireId then [Rule.tokenId] else []) = if !policy.requireId then [] else [Rule.tokenId] := by
        cases policy.requireId <;> rfl
      rw [switched]
      refine Rule.decides_unless ?_ Rule.decides_tokenId
      rw [Bool.not_eq_true', ← Bool.not_eq_true, imp_iff_not_or]

/-- A policy's validator accepts exactly the claims that meet all that the policy asks for, and otherwise reports the
first demand that is not met, whatever the leeway. Rules in a validator and rules in a row give the same verdict: that
of the first rule that fails. -/
theorem toValidator_verdict (now : Instant) (claims : ClaimView) :
    (∀ policy : ClaimPolicy, Decides (policy.demands now claims) (policy.toValidator.validate now claims)) ∧
    ∀ rules : List Rule,
      Validator.validate now ⟨rules⟩ claims = Rule.checkAll now rules claims ∧
      (Rule.checkAll now rules claims = .ok () ↔ ∀ rule ∈ rules, rule.check now claims = .ok ()) ∧
      ∀ violation, Rule.checkAll now rules claims = .error violation ↔
        ∃ before rule after, rules = before ++ rule :: after ∧
          (∀ passed ∈ before, passed.check now claims = .ok ()) ∧ rule.check now claims = .error violation := by
  constructor
  · intro policy
    exact decides_toValidator policy now claims
  · intro rules
    refine ⟨Rule.validate_eq_checkAll ⟨rules⟩, Rule.checkAll_eq_ok, ?_⟩
    intro violation
    exact Rule.checkAll_eq_error

/-- Claims that have long expired, where the least leeway makes the window endless and leaves the identifier to
decide. -/
example :
    let policy : ClaimPolicy := { leeway := -9223372036854775808, requireId := true }
    let expired : ClaimView := fun name => if name = "exp" then some (.time ⟨0, by decide⟩) else none
    policy.toValidator.validate ⟨8210266876799999999999, by decide⟩ expired = .error .absentId := by
  decide

end ClaimPolicy

end WebToken
