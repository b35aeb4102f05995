import Mathlib.Data.Int.ModEq
import WebToken.Proofs.Key.SetDocument

/-!
Rotation. The keys of a set with a use and an algorithm take turns second by second, in the order of their
identifiers; it matters neither in which order they came into the set nor what else the set holds.
-/

namespace WebToken.KeySet

variable {set other : KeySet} {use : KeyUse} {algorithm : String} {second : Int} {key : Key} {index : Nat}

theorem ascending_candidates (set : KeySet) (use : KeyUse) (algorithm : String) :
    (set.candidates use algorithm).Pairwise fun one other => one.id < other.id := (ascending_keys set).filter _

theorem candidates_congr (same : ∀ key : Key, key.use = some use → key.algorithm = algorithm →
    (key ∈ set.keys ↔ key ∈ other.keys)) : set.candidates use algorithm = other.candidates use algorithm := by
  refine eq_of_ascending (ascending_candidates _ _ _) (ascending_candidates _ _ _) fun key => ?_
  rw [mem_candidates, mem_candidates]
  constructor
  · intro ⟨present, used, declared⟩
    exact ⟨(same key used declared).mp present, used, declared⟩
  · intro ⟨present, used, declared⟩
    exact ⟨(same key used declared).mpr present, used, declared⟩

theorem select?_congr (same : set.candidates use algorithm = other.candidates use algorithm) (second : Int) :
    set.select? use algorithm second = other.select? use algorithm second := by
  rw [select?, select?, same]

section Turns

variable {count : Nat}

/-- Every second has a place in its round, also before 1970. -/
theorem exists_place (positive : 0 < count) (second : Int) : ∃ index < count, second % (count : Int) = index := by
  have least := Int.emod_nonneg second (Int.natCast_ne_zero.mpr (Nat.ne_of_gt positive))
  have most := Int.emod_lt_of_pos second (Int.natCast_pos.mpr positive)
  obtain ⟨index, placed⟩ := Int.eq_ofNat_of_zero_le least
  exact ⟨index, Int.ofNat_lt.mp (placed ▸ most), placed⟩

/-- A round that starts at any second has one second for each place. -/
theorem existsUnique_second (within : index < count) (start : Int) :
    ∃! offset : Nat, offset < count ∧ (start + offset) % (count : Int) = index := by
  have small : ∀ number < count, (number : Int) % (count : Int) = number := fun number bound =>
    Int.emod_eq_of_lt (Int.natCast_nonneg _) (Int.ofNat_lt.mpr bound)
  obtain ⟨offset, bound, placed⟩ := exists_place (Nat.zero_lt_of_lt within) (index - start)
  have reached : (start + offset) % (count : Int) = index := by
    rw [← placed, Int.add_emod_emod, add_sub_cancel, small index within]
  refine ⟨offset, ⟨bound, reached⟩, fun another ⟨anotherBound, anotherReached⟩ => ?_⟩
  have congruent : (another : Int) ≡ offset [ZMOD count] :=
    Int.ModEq.add_left_cancel' start (anotherReached.trans reached.symm)
  rw [Int.ModEq, small another anotherBound, small offset bound] at congruent
  exact Int.ofNat_inj.mp congruent

end Turns

theorem select?_eq_none : set.select? use algorithm second = none ↔ set.candidates use algorithm = [] := by
  constructor
  · intro nothing
    refine List.length_eq_zero_iff.mp (Nat.eq_zero_of_not_pos fun positive => ?_)
    obtain ⟨index, within, placed⟩ := exists_place positive second
    have turn : (second % ((set.candidates use algorithm).length : Int)).toNat = index := by
      rw [placed, Int.toNat_natCast]
    exact Nat.not_le_of_gt within (turn ▸ List.getElem?_eq_none_iff.mp nothing)
  · intro nothing
    rw [select?, nothing]
    rfl

/-- A candidate is selected in the seconds of its place. -/
theorem select?_eq_some_iff (placed : (set.candidates use algorithm)[index]? = some key) :
    set.select? use algorithm second = some key ↔
      second % ((set.candidates use algorithm).length : Int) = index := by
  have within : index < (set.candidates use algorithm).length := (List.getElem?_eq_some_iff.mp placed).1
  obtain ⟨turn, bound, found⟩ := exists_place (Nat.zero_lt_of_lt within) second
  have selected : set.select? use algorithm second = (set.candidates use algorithm)[turn]? := by
    rw [← Int.toNat_natCast turn, ← found]
    rfl
  rw [selected, ← placed, List.getElem?_inj bound (nodup_candidates set use algorithm), found, Int.ofNat_inj]

theorem insert_comm {one other : Key} (differs : one.id ≠ other.id) :
    (set.insert one).insert other = (set.insert other).insert one := by
  refine eq_of_keys (eq_of_ascending (ascending_keys _) (ascending_keys _) fun key => ?_)
  rw [mem_keys, mem_keys]
  simp only [find?_insert]
  by_cases first : key.id = one.id
  · simp only [first, if_neg differs, if_true]
  · simp only [first, if_false]

/-- Keys with identifiers of their own may be added in any order. -/
theorem foldl_insert_perm {keys others : List Key} (perm : keys.Perm others) (distinct : (keys.map Key.id).Nodup)
    (set : KeySet) : keys.foldl insert set = others.foldl insert set := by
  refine perm.foldl_eq' (fun one present other there set => ?_) set
  by_cases same : one.id = other.id
  · rw [List.inj_on_of_nodup_map distinct present there same]
  · exact insert_comm same

/-- The keys of a set with a use and an algorithm take turns in the order of their identifiers. -/
structure Rotates (set : KeySet) (use : KeyUse) (algorithm : String) : Prop where
  members : ∀ key, key ∈ set.candidates use algorithm ↔
    key ∈ set.keys ∧ key.use = some use ∧ key.algorithm = algorithm
  ascending : (set.candidates use algorithm).Pairwise fun one other => Bytes.ofText one.id < Bytes.ofText other.id
  absent : ∀ second, set.select? use algorithm second = none ↔ set.candidates use algorithm = []
  /-- Every second has the key whose place it is in its round. -/
  turn : ∀ second, set.candidates use algorithm ≠ [] → ∃ (index : Nat) (key : Key),
    (set.candidates use algorithm)[index]? = some key ∧
      second % ((set.candidates use algorithm).length : Int) = index ∧ set.select? use algorithm second = some key
  /-- A round that starts at any second gives each key its turn once. -/
  once : ∀ start, ∀ key ∈ set.candidates use algorithm, ∃! offset : Nat,
    offset < (set.candidates use algorithm).length ∧ set.select? use algorithm (start + offset) = some key
  repeats : ∀ second, set.select? use algorithm (second + (set.candidates use algorithm).length) =
    set.select? use algorithm second
  /-- Keys with identifiers of their own may be added in any order. -/
  unordered : ∀ keys others : List Key, keys.Perm others → (keys.map Key.id).Nodup → ∀ second,
    (keys.foldl insert set).select? use algorithm second = (others.foldl insert set).select? use algorithm second
  /-- It does not matter what else the set holds. -/
  separate : ∀ other : KeySet, (∀ key : Key, key.use = some use → key.algorithm = algorithm →
    (key ∈ set.keys ↔ key ∈ other.keys)) → ∀ second,
      set.select? use algorithm second = other.select? use algorithm second

theorem rotates_by_second (set : KeySet) (use : KeyUse) (algorithm : String) : set.Rotates use algorithm := by
  constructor
  case members => exact fun _ => mem_candidates
  case ascending => exact (ascending_bytes set).filter _
  case absent => exact fun _ => select?_eq_none
  case turn =>
      intro second nonempty
      obtain ⟨index, within, placed⟩ := exists_place (List.length_pos_iff.mpr nonempty) second
      have found := List.getElem?_eq_getElem within
      exact ⟨index, _, found, placed, (select?_eq_some_iff found).mpr placed⟩
  case once =>
      intro start key present
      obtain ⟨index, found⟩ := List.mem_iff_getElem?.mp present
      have within : index < (set.candidates use algorithm).length := (List.getElem?_eq_some_iff.mp found).1
      simp only [select?_eq_some_iff found]
      exact existsUnique_second within start
  case repeats =>
      intro second
      rw [select?, select?, Int.ofNat_eq_natCast, Int.add_emod_right]
  case unordered =>
      intro keys others perm distinct second
      rw [foldl_insert_perm perm distinct set]
  case separate =>
      intro other same
      exact select?_congr (candidates_congr same)

/-- Two keys that take turns, with a key for another use and one for another algorithm. -/
def keysTakingTurns : List Key :=
  [⟨"d", some .signature, some "RS256", .symmetric [4]⟩, ⟨"b", some .signature, some "HS256", .symmetric [2]⟩,
    ⟨"c", some .encryption, some "HS256", .symmetric [3]⟩, ⟨"a", some .signature, some "HS256", .symmetric [1]⟩]

theorem rotates_by_second_before_1970 :
    let set := ofKeys keysTakingTurns
    set.select? .signature "HS256" (-1) = some ⟨"b", some .signature, some "HS256", .symmetric [2]⟩ ∧
      set.select? .signature "HS256" (-1 + (2 : Nat)) = set.select? .signature "HS256" (-1) ∧
      (ofKeys keysTakingTurns.reverse).select? .signature "HS256" (-1) = set.select? .signature "HS256" (-1) ∧
      set.select? .encryption "RS256" (-1) = none := by
  intro set
  have listed : set.candidates .signature "HS256" = [⟨"a", some .signature, some "HS256", .symmetric [1]⟩,
      ⟨"b", some .signature, some "HS256", .symmetric [2]⟩] := by decide
  have rotates : set.Rotates .signature "HS256" := rotates_by_second set _ _
  obtain ⟨index, key, found, placed, selected⟩ := rotates.turn (-1) (by rw [listed]; nofun)
  have repeats := rotates.repeats (-1)
  rw [listed] at found placed repeats
  obtain rfl : index = 1 := Int.ofNat_inj.mp placed.symm
  obtain rfl := Option.some.inj found
  have ordered := (rotates_by_second empty .signature "HS256").unordered keysTakingTurns keysTakingTurns.reverse
    keysTakingTurns.reverse_perm.symm (by decide) (-1)
  have absent : set.select? .encryption "RS256" (-1) = none :=
    ((rotates_by_second set .encryption "RS256").absent (-1)).mpr (by decide)
  exact ⟨selected, repeats, ordered.symm, absent⟩

end WebToken.KeySet
