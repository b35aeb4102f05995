import WebToken.Key.Set
import WebToken.Proofs.Table
import WebToken.Proofs.Text.Order

/-!
Sets of keys: the identifier of a key finds it, and so do its use and its algorithm if no other key
has both. The public set finds the public halves under the same conditions.
-/

namespace WebToken

namespace KeySet

variable {set : KeySet} {key : Key} {id algorithm : String} {use : KeyUse} {second : Int}

theorem mem_keys : key ∈ set.keys ↔ set.table.find? key.id = some key := by
  constructor
  · intro present
    obtain ⟨⟨name, entry⟩, there, rfl⟩ := List.mem_map.mp present
    exact Table.mem_iff_find?.mp (set.keyed _ there ▸ there)
  · intro found
    exact List.mem_map.mpr ⟨_, Table.mem_iff_find?.mpr found, rfl⟩

theorem byId?_eq_some : set.byId? id = some key ↔ id ≠ "" ∧ key ∈ set.keys ∧ key.id = id := by
  unfold byId?
  by_cases empty : id = ""
  · simp [empty]
  · rw [if_neg (by simpa using empty), mem_keys]
    constructor
    · intro found
      have named : id = key.id := set.keyed _ (Table.mem_iff_find?.mpr found)
      exact ⟨empty, named ▸ found, named.symm⟩
    · intro given
      obtain ⟨_, found, rfl⟩ := given
      exact found

theorem mem_candidates :
    key ∈ set.candidates use algorithm ↔ key ∈ set.keys ∧ key.use = some use ∧ key.algorithm = algorithm := by
  simp [candidates]

theorem mem_candidates_of_select? (selected : set.select? use algorithm second = some key) :
    key ∈ set.candidates use algorithm := List.mem_of_getElem? selected

theorem ascending_keys (set : KeySet) : set.keys.Pairwise fun one other => one.id < other.id := by
  refine List.pairwise_map.mpr (set.table.sorted.imp_of_mem fun {one other} present there below => ?_)
  rw [← set.keyed one present, ← set.keyed other there]
  exact below

theorem ascending_bytes (set : KeySet) :
    set.keys.Pairwise fun one other => Bytes.ofText one.id < Bytes.ofText other.id :=
  (ascending_keys set).imp Utf8.ofText_lt_iff.mpr

theorem find?_insert (set : KeySet) (key : Key) (id : String) :
    (set.insert key).table.find? id = if id = key.id then some key else set.table.find? id :=
  Table.find?_insert key.id id key set.table

theorem keys_insert {set : KeySet} {key : Key} (below : ∀ other ∈ set.keys, other.id < key.id) :
    (set.insert key).keys = set.keys ++ [key] := by
  have names : ∀ entry ∈ set.table, entry.1 < key.id := by
    intro entry present
    rw [set.keyed entry present]
    exact below entry.2 (List.mem_map.mpr ⟨entry, present, rfl⟩)
  have inserted : (set.insert key).table.entries = set.table.entries ++ [(key.id, key)] :=
    Table.entries_insert_of_below names
  rw [keys, Table.values, inserted, List.map_append]
  rfl

theorem keys_ofKeys {keys : List Key} (ascending : keys.Pairwise fun one other => one.id < other.id) :
    (ofKeys keys).keys = keys := by
  suffices added : ∀ set : KeySet, (set.keys ++ keys).Pairwise (fun one other => one.id < other.id) →
      (keys.foldl insert set).keys = set.keys ++ keys from added empty ascending
  clear ascending
  induction keys with
  | nil =>
      intro set _
      exact (List.append_nil _).symm
  | cons key rest ih =>
      intro set ascending
      have below : ∀ other ∈ set.keys, other.id < key.id := fun other present =>
        (List.pairwise_append.mp ascending).2.2 other present key List.mem_cons_self
      have moved : (set.insert key).keys ++ rest = set.keys ++ key :: rest := by
        rw [keys_insert below, List.append_assoc, List.singleton_append]
      rw [List.foldl_cons, ih (set.insert key) (moved ▸ ascending), moved]

/-- The keys of the public set are the public halves of the asymmetric keys, in the same order. -/
theorem keys_toPublic (set : KeySet) :
    set.toPublic.keys = (set.keys.filter fun key => !key.isSymmetric).map Key.toPublic :=
  keys_ofKeys (List.pairwise_map.mpr ((ascending_keys set).filter _))

theorem mem_keys_toPublic :
    key ∈ set.toPublic.keys ↔ ∃ own ∈ set.keys, own.isSymmetric = false ∧ own.toPublic = key := by
  simp [keys_toPublic, and_assoc]

/-- A key that can be told from the others of its set: by its identifier, or because no other key
has its use and its algorithm. -/
def Addressed (set : KeySet) (key : Key) : Prop :=
  key.id ≠ "" ∨ ∀ other ∈ set.keys, other.use = key.use → other.algorithm = key.algorithm → other = key

/-- What tells a key from the others of its set tells its public half from the public ones. -/
theorem Addressed.toPublic (addressed : Addressed set key) : Addressed set.toPublic key.toPublic := by
  rcases addressed with named | only
  · exact Or.inl named
  · refine Or.inr fun other present used algorithm => ?_
    obtain ⟨own, there, _, rfl⟩ := mem_keys_toPublic.mp present
    rw [only own there used algorithm]

theorem nodup_candidates (set : KeySet) (use : KeyUse) (algorithm : String) :
    (set.candidates use algorithm).Nodup := (nodup_of_ascending (ascending_keys set)).filter _

theorem candidates_of_only (present : key ∈ set.keys) (used : key.use = some use)
    (only : ∀ other ∈ set.keys, other.use = key.use → other.algorithm = key.algorithm → other = key) :
    set.candidates use key.algorithm = [key] := by
  have there : key ∈ set.candidates use key.algorithm := mem_candidates.mpr ⟨present, used, rfl⟩
  have same : ∀ other ∈ set.candidates use key.algorithm, other = key := by
    intro other found
    obtain ⟨member, otherUsed, algorithm⟩ := mem_candidates.mp found
    exact only other member (otherUsed.trans used.symm) algorithm
  have once := nodup_candidates set use key.algorithm
  rw [List.eq_replicate_of_mem same] at there once ⊢
  have positive := (List.mem_replicate.mp there).1
  have most := List.nodup_replicate.mp once
  have one : (set.candidates use key.algorithm).length = 1 := by omega
  rw [one]
  rfl

/-- The only key with its use and its algorithm is selected in every second. -/
theorem select?_of_only (present : key ∈ set.keys) (used : key.use = some use)
    (only : ∀ other ∈ set.keys, other.use = key.use → other.algorithm = key.algorithm → other = key) (second : Int) :
    set.select? use key.algorithm second = some key := by
  rw [select?, candidates_of_only present used only]
  simp

end KeySet

end WebToken
