/-!
Tables: entries under text names, in ascending order of the names, with no name twice. Names compare
by their characters, which is also the order of their UTF-8 bytes.
-/

namespace WebToken

abbrev Entries (α : Type) := List (String × α)

namespace Entries

variable {α : Type} {name : String} {entry : α} {entries : Entries α}

/-- Ascending names, which leaves no room for a name twice. -/
def Sorted (entries : Entries α) : Prop := entries.Pairwise fun one other => one.1 < other.1

instance (entries : Entries α) : Decidable entries.Sorted :=
  inferInstanceAs (Decidable (entries.Pairwise fun one other => one.1 < other.1))

def insert (name : String) (entry : α) : Entries α → Entries α
  | [] => [(name, entry)]
  | first :: rest =>
      if name < first.1 then (name, entry) :: first :: rest
      else if name = first.1 then (name, entry) :: rest
      else first :: insert name entry rest

def find? (name : String) : Entries α → Option α
  | [] => none
  | first :: rest => if name = first.1 then some first.2 else find? name rest

def names (entries : Entries α) : List String := entries.map (·.1)

theorem find?_insert (name other : String) (entry : α) (entries : Entries α) :
    find? other (insert name entry entries) = if other = name then some entry else find? other entries := by
  induction entries with
  | nil => rfl
  | cons first rest ih =>
      by_cases before : name < first.1
      · simp only [insert, before, ↓reduceIte, find?]
      · by_cases same : name = first.1
        · subst same
          simp only [insert, before, ↓reduceIte, find?]
          split <;> rfl
        · simp only [insert, before, same, ↓reduceIte, find?, ih]
          by_cases found : other = first.1
          · have differs : other ≠ name := fun equal => same (equal.symm.trans found)
            rw [if_pos found, if_neg differs, if_pos found]
          · simp only [found, ↓reduceIte]

theorem mem_insert {found : String × α} (present : found ∈ insert name entry entries) :
    found = (name, entry) ∨ found ∈ entries := by
  induction entries with
  | nil => exact Or.inl (List.mem_singleton.mp present)
  | cons first rest ih =>
      unfold insert at present
      split at present
      · exact List.mem_cons.mp present
      · split at present
        · rcases List.mem_cons.mp present with fresh | old
          · exact Or.inl fresh
          · exact Or.inr (List.mem_cons_of_mem _ old)
        · rcases List.mem_cons.mp present with kept | deeper
          · exact Or.inr (kept ▸ List.mem_cons_self)
          · exact (ih deeper).imp_right (List.mem_cons_of_mem _)

theorem sorted_insert (sorted : entries.Sorted) (name : String) (entry : α) : (entries.insert name entry).Sorted := by
  induction entries with
  | nil => exact List.pairwise_singleton _ _
  | cons first rest ih =>
      obtain ⟨firstBelow, restSorted⟩ := List.pairwise_cons.mp sorted
      unfold insert
      split
      · rename_i before
        refine List.pairwise_cons.mpr ⟨fun other present => ?_, sorted⟩
        rcases List.mem_cons.mp present with same | later
        · exact same ▸ before
        · exact String.lt_trans before (firstBelow other later)
      · split
        · rename_i same
          exact List.pairwise_cons.mpr ⟨same ▸ firstBelow, restSorted⟩
        · rename_i notBefore differs
          have after : first.1 < name :=
            String.not_le.mp fun atMost => differs (String.le_antisymm (String.not_lt.mp notBefore) atMost).symm
          refine List.pairwise_cons.mpr ⟨fun other present => ?_, ih restSorted⟩
          rcases mem_insert present with fresh | old
          · exact fresh ▸ after
          · exact firstBelow other old

theorem mem_of_find? (found : entries.find? name = some entry) : (name, entry) ∈ entries := by
  induction entries with
  | nil => cases found
  | cons first rest ih =>
      unfold find? at found
      split at found
      case isTrue same =>
          obtain rfl := Option.some.inj found
          rw [same]
          exact List.mem_cons_self
      case isFalse => exact List.mem_cons_of_mem first (ih found)

theorem find?_of_mem (sorted : entries.Sorted) (present : (name, entry) ∈ entries) :
    entries.find? name = some entry := by
  induction entries with
  | nil => cases present
  | cons first rest ih =>
      obtain ⟨below, sorted⟩ := List.pairwise_cons.mp sorted
      unfold find?
      rcases List.mem_cons.mp present with rfl | later
      · rw [if_pos rfl]
      · have differs : name ≠ first.1 := fun same => String.lt_irrefl _ (same ▸ below _ later)
        rw [if_neg differs]
        exact ih sorted later

theorem insert_of_below (below : ∀ other ∈ entries, other.1 < name) :
    entries.insert name entry = entries ++ [(name, entry)] := by
  induction entries with
  | nil => rfl
  | cons first rest ih =>
      obtain ⟨firstBelow, restBelow⟩ := List.forall_mem_cons.mp below
      have notBefore : ¬ name < first.1 := fun before => String.lt_irrefl _ (String.lt_trans before firstBelow)
      have differs : name ≠ first.1 := fun same => String.lt_irrefl _ (same ▸ firstBelow)
      rw [insert, if_neg notBefore, if_neg differs, ih restBelow, List.cons_append]

end Entries

/-- Entries that stand in the order of their names. -/
@[ext]
structure Table (α : Type) where
  entries : Entries α
  sorted : entries.Sorted
  deriving DecidableEq, Repr

namespace Table

variable {α : Type}

instance : Membership (String × α) (Table α) := ⟨fun table entry => entry ∈ table.entries⟩

def empty : Table α := ⟨[], List.Pairwise.nil⟩

def insert (name : String) (entry : α) (table : Table α) : Table α :=
  ⟨table.entries.insert name entry, Entries.sorted_insert table.sorted name entry⟩

def find? (name : String) (table : Table α) : Option α := table.entries.find? name

/-- The table of entries given in any order; the last entry of a name stays. -/
def ofEntries (entries : Entries α) : Table α :=
  entries.foldl (fun table entry => table.insert entry.1 entry.2) empty

def filter (keep : String × α → Bool) (table : Table α) : Table α :=
  ⟨table.entries.filter keep, table.sorted.filter keep⟩

def values (table : Table α) : List α := table.entries.map (·.2)

variable {table : Table α} {name : String} {entry : α}

theorem mem_filter {keep : String × α → Bool} {found : String × α} :
    found ∈ table.filter keep ↔ found ∈ table ∧ keep found = true := List.mem_filter

theorem mem_insert {found : String × α} (present : found ∈ table.insert name entry) :
    found = (name, entry) ∨ found ∈ table := Entries.mem_insert present

theorem find?_insert (name other : String) (entry : α) (table : Table α) :
    (table.insert name entry).find? other = if other = name then some entry else table.find? other :=
  Entries.find?_insert name other entry table.entries

theorem mem_iff_find? : (name, entry) ∈ table ↔ table.find? name = some entry :=
  ⟨Entries.find?_of_mem table.sorted, Entries.mem_of_find?⟩

/-- A name after all others goes to the end. -/
theorem entries_insert_of_below (below : ∀ other ∈ table, other.1 < name) :
    (table.insert name entry).entries = table.entries ++ [(name, entry)] := Entries.insert_of_below below

end Table

end WebToken
