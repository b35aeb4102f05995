import WebToken.Checked
import WebToken.Claims.Rule

/-!
Verdicts. Rules ask for conditions in an order, each with the violation that stands for it; the first that is not
met decides. A row of rules asks for what its rules ask for, one after the other.
-/

namespace WebToken

/-- A condition, and the violation that it is not to meet it. -/
structure Demand where
  met : Prop
  violation : Violation

/-- The violation of the first demand that is not met. -/
inductive FirstUnmet : List Demand → Violation → Prop
  | here {demand : Demand} {others : List Demand} (unmet : ¬demand.met) :
      FirstUnmet (demand :: others) demand.violation
  | later {demand : Demand} {others : List Demand} {violation : Violation} (met : demand.met)
      (unmet : FirstUnmet others violation) : FirstUnmet (demand :: others) violation

/-- A verdict accepts if all demands are met, and otherwise reports the first that is not. -/
structure Decides (demands : List Demand) (verdict : Except Violation Unit) : Prop where
  accepts : verdict = .ok () ↔ ∀ demand ∈ demands, demand.met
  refuses : ∀ violation, verdict = .error violation ↔ FirstUnmet demands violation

theorem firstUnmet_nil {violation : Violation} : ¬FirstUnmet [] violation := nofun

theorem firstUnmet_cons {demand : Demand} {others : List Demand} {violation : Violation} :
    FirstUnmet (demand :: others) violation ↔
      ¬demand.met ∧ demand.violation = violation ∨ demand.met ∧ FirstUnmet others violation := by
  constructor
  · intro unmet
    cases unmet with
    | here unmet => exact Or.inl ⟨unmet, rfl⟩
    | later met unmet => exact Or.inr ⟨met, unmet⟩
  · rintro (⟨unmet, rfl⟩ | ⟨met, unmet⟩)
    · exact .here unmet
    · exact .later met unmet

theorem firstUnmet_append {before after : List Demand} {violation : Violation} :
    FirstUnmet (before ++ after) violation ↔
      FirstUnmet before violation ∨ (∀ demand ∈ before, demand.met) ∧ FirstUnmet after violation := by
  induction before with
  | nil => simp [firstUnmet_nil]
  | cons first before ih =>
      rw [List.cons_append, firstUnmet_cons, firstUnmet_cons, List.forall_mem_cons, ih, and_or_left, or_assoc,
        and_assoc]

namespace Decides

variable {demands others : List Demand} {demand : Demand} {verdict next : Except Violation Unit}

theorem of_require {holds : Bool} (agree : holds = true ↔ demand.met) :
    Decides [demand] (Rule.require holds demand.violation) := by
  have first (violation : Violation) :
      FirstUnmet [demand] violation ↔ ¬demand.met ∧ demand.violation = violation := by
    simp only [firstUnmet_cons, firstUnmet_nil, and_false, or_false]
  refine ⟨?_, fun violation => ?_⟩
  · rw [List.forall_mem_singleton, ← agree]
    cases holds <;> simp [Rule.require]
  · rw [first, ← agree]
    cases holds <;> simp [Rule.require]

/-- What is checked after another check decides the demands behind its demands. -/
theorem andThen (first : Decides demands verdict) (second : Decides others next) :
    Decides (demands ++ others) (verdict >>= fun _ => next) := by
  refine ⟨?_, fun violation => ?_⟩
  · rw [check_bind_eq_ok, List.forall_mem_append, first.accepts, second.accepts]
  · rw [check_bind_eq_error, firstUnmet_append, first.refuses, first.accepts, second.refuses]

/-- What is asked for tells the verdict. -/
theorem unique (first : Decides demands verdict) (second : Decides demands next) : verdict = next := by
  cases verdict with
  | ok passed => exact (second.accepts.mpr (first.accepts.mp rfl)).symm
  | error violation => exact ((second.refuses violation).mpr ((first.refuses violation).mp rfl)).symm

/-- Two verdicts that can refuse for one reason only are the same if they accept together. -/
theorem eq_of_accepts {met asked : Prop} {violation : Violation} (first : Decides [⟨met, violation⟩] verdict)
    (second : Decides [⟨asked, violation⟩] next) (together : verdict = .ok () ↔ next = .ok ()) : verdict = next := by
  rw [first.accepts, second.accepts, List.forall_mem_singleton, List.forall_mem_singleton] at together
  have same : met = asked := propext together
  exact first.unique (same ▸ second)

end Decides

namespace Rule

variable {clock : Instant} {claims : ClaimView} {rules : List Rule} {violation : Violation}

theorem checkAll_cons (rule : Rule) (rest : List Rule) :
    checkAll clock (rule :: rest) claims = rule.check clock claims >>= fun _ => checkAll clock rest claims := rfl

theorem checkAll_append (rules others : List Rule) :
    checkAll clock (rules ++ others) claims =
      checkAll clock rules claims >>= fun _ => checkAll clock others claims := by
  induction rules with
  | nil => rfl
  | cons rule rest ih => rw [List.cons_append, checkAll_cons, checkAll_cons, ih, bind_assoc]

theorem checkAll_eq_ok : checkAll clock rules claims = .ok () ↔ ∀ rule ∈ rules, rule.check clock claims = .ok () := by
  induction rules with
  | nil => exact ⟨fun _ => List.forall_mem_nil _, fun _ => rfl⟩
  | cons rule rest ih =>
      rw [checkAll_cons, check_bind_eq_ok, List.forall_mem_cons, ih]

/-- The first rule that fails decides. -/
theorem checkAll_eq_error :
    checkAll clock rules claims = .error violation ↔ ∃ before rule after, rules = before ++ rule :: after ∧
      (∀ passed ∈ before, passed.check clock claims = .ok ()) ∧ rule.check clock claims = .error violation := by
  constructor
  · intro failed
    induction rules with
    | nil => cases failed
    | cons rule rest ih =>
        rw [checkAll_cons, check_bind_eq_error] at failed
        rcases failed with failed | ⟨passed, failed⟩
        · exact ⟨[], rule, rest, rfl, List.forall_mem_nil _, failed⟩
        · obtain ⟨before, first, after, rfl, sound, failed⟩ := ih failed
          exact ⟨rule :: before, first, after, rfl, List.forall_mem_cons.mpr ⟨passed, sound⟩, failed⟩
  · rintro ⟨before, rule, after, rfl, sound, failed⟩
    rw [checkAll_append, checkAll_eq_ok.mpr sound, ok_bind, checkAll_cons, check_bind_eq_error]
    exact Or.inl failed

/-- A validator goes through its rules by itself, to the same verdict. -/
theorem validate_eq_checkAll (validator : Validator) :
    validator.validate clock claims = checkAll clock validator.rules claims := by
  obtain ⟨rules⟩ := validator
  induction rules with
  | nil => rfl
  | cons rule rest ih =>
      rw [Validator.validate, Validator.validateRules, checkAll_cons]
      cases rule.check clock claims with
      | error violation => rfl
      | ok passed => exact ih

end Rule

end WebToken
