import WebToken.Proofs.Key.Rotation
import WebToken.Proofs.Key.Source

/-!
Sources by identifier and by algorithm. A key that one of them gives is given by the other with the same algorithm: by
its identifier at any time, and by its algorithm when it has its turn.
-/

namespace WebToken.KeySource

namespace Stage

variable {α : Type} {stage : Stage α} {set : KeySet} {key : Key} {algorithm : α} {id : String} {second : Int}
  {found : ResolvedKey}

/-- Why an identifier leads to no key: it is empty or of no key, or its key is for another use, declares nothing, or
declares what is no algorithm of the stage. -/
inductive Misses (stage : Stage α) (set : KeySet) (id : String) : Prop
  | unnamed (empty : id = "") : Misses stage set id
  | absent (missing : ∀ key ∈ set.keys, key.id ≠ id) : Misses stage set id
  | otherUse {key : Key} (present : key ∈ set.keys) (named : key.id = id) (use : key.use ≠ some stage.use) :
      Misses stage set id
  | undeclared {key : Key} (present : key ∈ set.keys) (named : key.id = id) (nothing : key.declared = none) :
      Misses stage set id
  | unregistered {key : Key} {text : String} (present : key ∈ set.keys) (named : key.id = id)
      (declared : key.declared = some text) (unknown : ∀ algorithm, stage.name algorithm ≠ text) : Misses stage set id

theorem Misses.not_given (misses : stage.Misses set id) : (stage.byId id set).resolve second ≠ some found := by
  intro resolved
  obtain ⟨key, algorithm, selected, used, declared, _⟩ := byId_eq_some.mp resolved
  obtain ⟨nonempty, present, named⟩ := KeySet.byId?_eq_some.mp selected
  have only {other : Key} (there : other ∈ set.keys) (same : other.id = id) : other = key :=
    Option.some.inj ((KeySet.byId?_eq_some.mpr ⟨nonempty, there, same⟩).symm.trans selected)
  cases misses with
  | unnamed empty => exact nonempty empty
  | absent missing => exact missing key present named
  | otherUse there same use => exact use (only there same ▸ used)
  | undeclared there same nothing =>
      obtain rfl := only there same
      cases nothing.symm.trans declared
  | unregistered there same other unknown =>
      obtain rfl := only there same
      exact unknown algorithm (Option.some.inj (declared.symm.trans other))

/-- A source by an identifier gives nothing exactly if the identifier misses. -/
theorem byId_eq_none : (stage.byId id set).resolve second = none ↔ stage.Misses set id := by
  constructor
  · intro nothing
    by_cases empty : id = ""
    · exact .unnamed empty
    cases selected : set.byId? id with
    | none =>
        refine .absent fun key present named => ?_
        cases selected.symm.trans (KeySet.byId?_eq_some.mpr ⟨empty, present, named⟩)
    | some key =>
        obtain ⟨_, present, named⟩ := KeySet.byId?_eq_some.mp selected
        by_cases used : key.use = some stage.use
        · cases declared : key.declared with
          | none => exact .undeclared present named declared
          | some text =>
              refine .unregistered present named declared fun algorithm same => ?_
              cases nothing.symm.trans
                (byId_eq_some.mpr ⟨key, algorithm, selected, used, declared.trans (congrArg some same.symm), rfl⟩)
        · exact .otherUse present named used
  · exact fun misses => Option.eq_none_iff_forall_ne_some.mpr fun _ => misses.not_given

/-- What a source by an algorithm gives is found by its identifier. -/
theorem byId_of_byAlgorithm (resolved : (stage.byAlgorithm algorithm set).resolve second = some found)
    (given : found.key = some key) (named : key.id ≠ "") (other : Int) :
    (stage.byId key.id set).resolve other = some found := by
  obtain ⟨chosen, selected, rfl⟩ := byAlgorithm_eq_some.mp resolved
  obtain rfl := Option.some.inj given
  obtain ⟨present, used, declared⟩ := KeySet.mem_candidates.mp (KeySet.mem_candidates_of_select? selected)
  exact byId_eq_some.mpr ⟨chosen, algorithm, KeySet.byId?_eq_some.mpr ⟨named, present, rfl⟩, used,
    declared_eq_some.mpr declared, rfl⟩

/-- What a source by an identifier gives has its turn, in every round that starts at some second. -/
theorem exists_turn (resolved : (stage.byId id set).resolve second = some found) :
    ∃ algorithm, found.suite = stage.suite algorithm ∧ ∀ start : Int, ∃ offset : Nat,
      offset < (set.candidates stage.use (stage.name algorithm)).length ∧
        (stage.byAlgorithm algorithm set).resolve (start + offset) = some found := by
  obtain ⟨key, algorithm, selected, used, declared, rfl⟩ := byId_eq_some.mp resolved
  refine ⟨algorithm, rfl, ?_⟩
  intro start
  obtain ⟨_, present, _⟩ := KeySet.byId?_eq_some.mp selected
  have candidate : key ∈ set.candidates stage.use (stage.name algorithm) :=
    KeySet.mem_candidates.mpr ⟨present, used, declared_eq_some.mp declared⟩
  obtain ⟨index, placed⟩ := List.mem_iff_getElem?.mp candidate
  obtain ⟨within, _⟩ := List.getElem?_eq_some_iff.mp placed
  obtain ⟨offset, ⟨bound, reached⟩, _⟩ := KeySet.existsUnique_second within start
  have taken := (KeySet.select?_eq_some_iff placed).mpr reached
  exact ⟨offset, bound, byAlgorithm_eq_some.mpr ⟨key, taken, rfl⟩⟩

/-- How the sources of a stage agree over a set. -/
structure Agrees (stage : Stage α) (set : KeySet) : Prop where
  /-- What a source gives is a key of the set with the use of the stage and with the algorithm that it declares. -/
  sound : ∀ source second found, stage.Asks set source → source.resolve second = some found → stage.Gives set found
  missed : ∀ id second, (stage.byId id set).resolve second = none ↔ stage.Misses set id
  /-- What is given by an algorithm is given by its identifier as well, -/
  identified : ∀ algorithm second found key, (stage.byAlgorithm algorithm set).resolve second = some found →
    found.key = some key → key.id ≠ "" → ∀ other, (stage.byId key.id set).resolve other = some found
  /-- and what is given by its identifier has its turn by its algorithm, in every round of seconds. -/
  turn : ∀ id second found, (stage.byId id set).resolve second = some found →
    ∃ algorithm, found.suite = stage.suite algorithm ∧ ∀ start : Int, ∃ offset : Nat,
      offset < (set.candidates stage.use (stage.name algorithm)).length ∧
        (stage.byAlgorithm algorithm set).resolve (start + offset) = some found

end Stage

/-- For signing and for encryption, what a source over a set gives is a key of the set with the use of the stage and
the algorithm that it declares. A source by an identifier gives nothing for the empty one, and none of a key for
another use or without a known algorithm; otherwise it and the source by the algorithm give the same keys. -/
theorem sources_agree (set : KeySet) :
    Stage.signing.Agrees set ∧ ∀ content, (Stage.encryption content).Agrees set := by
  have agrees {α : Type} (stage : Stage α) : stage.Agrees set := by
    constructor
    case sound => exact fun _ _ _ => Stage.gives_of_resolve
    case missed => exact fun _ _ => Stage.byId_eq_none
    case identified => exact fun _ _ _ _ => Stage.byId_of_byAlgorithm
    case turn => exact fun _ _ _ => Stage.exists_turn
  exact ⟨agrees Stage.signing, fun content => agrees (Stage.encryption content)⟩

/-- One of two signing keys that take turns. Neither the empty identifier nor that of a key for encryption which
declares a signature algorithm leads to a key. -/
theorem sources_agree_turning :
    (∃ second, (signingByAlgorithm (.hmac .sha256) (.ofKeys KeySet.keysTakingTurns)).resolve second =
      some ⟨some ⟨"b", some .signature, some "HS256", .symmetric [2]⟩, .signed (.hmac .sha256)⟩) ∧
      (signingById "b" (.ofKeys KeySet.keysTakingTurns)).resolve (-7) =
        some ⟨some ⟨"b", some .signature, some "HS256", .symmetric [2]⟩, .signed (.hmac .sha256)⟩ ∧
      (signingById "" (.ofKeys KeySet.keysTakingTurns)).resolve 0 = none ∧
      (encryptionById "c" (.gcm .bits128) (.ofKeys KeySet.keysTakingTurns)).resolve 0 = none := by
  obtain ⟨signing, encryption⟩ := sources_agree (.ofKeys KeySet.keysTakingTurns)
  have resolved : (signingById "b" (.ofKeys KeySet.keysTakingTurns)).resolve 0 =
      some ⟨some ⟨"b", some .signature, some "HS256", .symmetric [2]⟩, .signed (.hmac .sha256)⟩ := by decide
  obtain ⟨algorithm, same, turns⟩ := signing.turn "b" 0 _ resolved
  obtain rfl : .hmac .sha256 = algorithm := by simpa [Stage.signing, Suite.signed] using same
  obtain ⟨offset, _, selected⟩ := turns 0
  refine ⟨⟨_, selected⟩, ?identified, ?unnamed, ?unregistered⟩
  case identified => exact signing.identified _ _ _ _ selected rfl (by decide) (-7)
  case unnamed => exact (signing.missed "" 0).mpr (.unnamed rfl)
  case unregistered =>
      have present : ⟨"c", some .encryption, some "HS256", .symmetric [3]⟩ ∈
          (KeySet.ofKeys KeySet.keysTakingTurns).keys := by
        decide
      have unknown : ∀ algorithm : KeyAlgorithm, algorithm.name ≠ "HS256" := by
        intro algorithm named
        have missing : KeyAlgorithm.ofName? "HS256" = none := by decide
        cases missing.symm.trans (KeyAlgorithm.ofName?_eq_some.mpr named)
      exact ((encryption (.gcm .bits128)).missed "c" 0).mpr (.unregistered present rfl rfl unknown)

end WebToken.KeySource
