import WebToken.Key.Source
import WebToken.Proofs.Algorithm
import WebToken.Proofs.Key.Set

/-!
Sources over a set of keys: what they give is a key of the set that has the use of the stage and
declares the algorithm that is given with it.
-/

namespace WebToken.KeySource

/-- A stage that keys of a set serve: their use, the registry in which their declared algorithm is looked up, and the
two sources over the set. -/
structure Stage (α : Type) where
  use : KeyUse
  name : α → String
  ofName? : String → Option α
  suite : α → Suite
  byId : String → KeySet → KeySource
  byAlgorithm : α → KeySet → KeySource
  ofName?_eq_some : ∀ {text algorithm}, ofName? text = some algorithm ↔ name algorithm = text
  name_ne_empty : ∀ algorithm, name algorithm ≠ ""
  resolve_byId : ∀ id set second, (byId id set).resolve second = (set.byId? id).bind fun key =>
    if key.use ≠ some use then none
    else (ofName? key.algorithm).bind fun algorithm => some ⟨some key, suite algorithm⟩
  resolve_byAlgorithm : ∀ algorithm set second, (byAlgorithm algorithm set).resolve second =
    (set.select? use (name algorithm) second).bind fun key => some ⟨some key, suite algorithm⟩

namespace Stage

def signing : Stage SignatureAlgorithm where
  use := .signature
  name := SignatureAlgorithm.name
  ofName? := SignatureAlgorithm.ofName?
  suite := .signed
  byId := signingById
  byAlgorithm := signingByAlgorithm
  ofName?_eq_some := SignatureAlgorithm.ofName?_eq_some
  name_ne_empty := SignatureAlgorithm.name_ne_empty
  resolve_byId _ _ _ := rfl
  resolve_byAlgorithm _ _ _ := rfl

/-- Encryption of a content of which the encryption is given. -/
def encryption (content : ContentEncryption) : Stage KeyAlgorithm where
  use := .encryption
  name := KeyAlgorithm.name
  ofName? := KeyAlgorithm.ofName?
  suite algorithm := .encrypted algorithm content
  byId id := encryptionById id content
  byAlgorithm algorithm := encryptionByAlgorithm algorithm content
  ofName?_eq_some := KeyAlgorithm.ofName?_eq_some
  name_ne_empty := KeyAlgorithm.name_ne_empty
  resolve_byId _ _ _ := rfl
  resolve_byAlgorithm _ _ _ := rfl

variable {α : Type} {stage : Stage α} {set : KeySet} {key : Key} {algorithm : α} {id : String} {second : Int}
  {found : ResolvedKey}

/-- A key that declares nothing has the empty name, which no algorithm has. -/
theorem declared_eq_some : key.declared = some (stage.name algorithm) ↔ key.algorithm = stage.name algorithm := by
  rw [Key.algorithm]
  cases key.declared with
  | none => simpa using (stage.name_ne_empty algorithm).symm
  | some text => simp

theorem byId_eq_some : (stage.byId id set).resolve second = some found ↔ ∃ key algorithm, set.byId? id = some key ∧
    key.use = some stage.use ∧ key.declared = some (stage.name algorithm) ∧
      found = ⟨some key, stage.suite algorithm⟩ := by
  simp only [resolve_byId, Option.bind_eq_some_iff, declared_eq_some]
  constructor
  · rintro ⟨key, present, given⟩
    split at given
    · cases given
    · rename_i used
      obtain ⟨algorithm, named, made⟩ := Option.bind_eq_some_iff.mp given
      exact ⟨key, algorithm, present, Decidable.not_not.mp used, (stage.ofName?_eq_some.mp named).symm,
        (Option.some.inj made).symm⟩
  · rintro ⟨key, algorithm, present, used, declared, rfl⟩
    refine ⟨key, present, ?_⟩
    rw [if_neg (not_not_intro used), stage.ofName?_eq_some.mpr declared.symm]
    rfl

theorem byAlgorithm_eq_some : (stage.byAlgorithm algorithm set).resolve second = some found ↔
    ∃ key, set.select? stage.use (stage.name algorithm) second = some key ∧
      found = ⟨some key, stage.suite algorithm⟩ := by
  rw [resolve_byAlgorithm, Option.bind_eq_some_iff]
  exact exists_congr fun key => and_congr_right fun _ => by rw [Option.some.injEq, eq_comm]

/-- The sources of a stage over a set. -/
inductive Asks (stage : Stage α) (set : KeySet) : KeySource → Prop
  | byId (id : String) : Asks stage set (stage.byId id set)
  | byAlgorithm (algorithm : α) : Asks stage set (stage.byAlgorithm algorithm set)

/-- A key of a set that has the use of the stage, with the algorithm that it declares. -/
inductive Gives (stage : Stage α) (set : KeySet) : ResolvedKey → Prop
  | key {key : Key} {algorithm : α} (present : key ∈ set.keys) (used : key.use = some stage.use)
      (declared : key.declared = some (stage.name algorithm)) : Gives stage set ⟨some key, stage.suite algorithm⟩

theorem gives_of_resolve {source : KeySource} (asks : stage.Asks set source)
    (resolved : source.resolve second = some found) : stage.Gives set found := by
  cases asks with
  | byId id =>
      obtain ⟨key, algorithm, selected, used, declared, rfl⟩ := byId_eq_some.mp resolved
      obtain ⟨_, present, _⟩ := KeySet.byId?_eq_some.mp selected
      exact .key present used declared
  | byAlgorithm algorithm =>
      obtain ⟨key, selected, rfl⟩ := byAlgorithm_eq_some.mp resolved
      obtain ⟨present, used, declared⟩ := KeySet.mem_candidates.mp (KeySet.mem_candidates_of_select? selected)
      exact .key present used (declared_eq_some.mpr declared)

/-- A source of the stage over a set, or the one that skips the stage. -/
inductive Supplies (stage : Stage α) (set : KeySet) : KeySource → Prop
  | skip : Supplies stage set .skip
  | asks {source : KeySource} (asks : stage.Asks set source) : Supplies stage set source

/-- Nothing, or a key that the stage is given from a set. -/
inductive Yields (stage : Stage α) (set : KeySet) : ResolvedKey → Prop
  | nothing : Yields stage set {}
  | gives {found : ResolvedKey} (gives : stage.Gives set found) : Yields stage set found

theorem yields_of_resolve {source : KeySource} (supplies : stage.Supplies set source)
    (resolved : source.resolve second = some found) : stage.Yields set found := by
  cases supplies with
  | skip =>
      obtain rfl := Option.some.inj resolved
      exact .nothing
  | asks asks => exact .gives (gives_of_resolve asks resolved)

theorem Yields.used (yields : stage.Yields set found) (given : found.key = some key) : key.use = some stage.use := by
  cases yields with
  | nothing => cases given
  | gives gives =>
      obtain ⟨_, used, _⟩ := gives
      exact Option.some.inj given ▸ used

end Stage

end WebToken.KeySource
