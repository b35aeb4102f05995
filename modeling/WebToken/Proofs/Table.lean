import Mathlib.Data.List.Induction
import Mathlib.Data.List.Perm.Lattice
import WebToken.Table

/-!
What a table holds. A table made of entries of distinct names holds these and no others, and it is told by what it
holds, since its names ascend.
-/

namespace WebToken

section Ascending

variable {α : Type} {name : α → String} {items others : List α}

theorem nodup_of_ascending (ascending : items.Pairwise fun one other => name one < name other) : items.Nodup := by
  refine ascending.imp ?_
  rintro one other below rfl
  exact String.lt_irrefl _ below

/-- Items in the order of their names are told by which they are. -/
theorem eq_of_ascending (ascending : items.Pairwise fun one other => name one < name other)
    (othersAscending : others.Pairwise fun one other => name one < name other)
    (same : ∀ item, item ∈ items ↔ item ∈ others) : items = others := by
  have perm : items.Perm others :=
    (List.perm_ext_iff_of_nodup (nodup_of_ascending ascending) (nodup_of_ascending othersAscending)).mpr same
  refine perm.eq_of_pairwise (fun one other _ _ below above => ?_) ascending othersAscending
  exact absurd (String.lt_trans below above) (String.lt_irrefl _)

end Ascending

namespace Table

variable {α : Type} {table : Table α} {entries : Entries α} {name : String} {entry : α}

theorem nodup_names (table : Table α) : table.entries.names.Nodup := by
  refine List.pairwise_map.mpr (table.sorted.imp fun {one other} below same => ?_)
  exact String.lt_irrefl _ (same ▸ below)

theorem mem_names : name ∈ table.entries.names ↔ table.find? name ≠ none := by
  rw [← Option.isSome_iff_ne_none, Option.isSome_iff_exists]
  simp only [← mem_iff_find?, Entries.names, List.mem_map, Prod.exists, exists_and_right, exists_eq_right]
  rfl

/-- Tables that hold the same entries are the same. -/
theorem eq_of_mem {other : Table α} (same : ∀ entry, entry ∈ table ↔ entry ∈ other) : table = other :=
  Table.ext (eq_of_ascending table.sorted other.sorted same)

/-- A name that stands once among the entries stands for its own entry. -/
theorem find?_ofEntries_eq_some (distinct : entries.names.Nodup) :
    (ofEntries entries).find? name = some entry ↔ (name, entry) ∈ entries := by
  -- The last entry is put over all that come before it.
  induction entries using List.reverseRecOn with
  | nil => simp [ofEntries, find?, Entries.find?, empty]
  | append_singleton before last ih =>
      rw [Entries.names, List.map_append, List.map_singleton, List.nodup_append'] at distinct
      obtain ⟨beforeDistinct, -, apart⟩ := distinct
      have absent : last.1 ∉ before.map (·.1) := List.disjoint_singleton.mp apart
      have put : ofEntries (before ++ [last]) = (ofEntries before).insert last.1 last.2 := List.foldl_concat ..
      rw [put, find?_insert, List.mem_append, List.mem_singleton]
      split
      case isTrue same =>
          have earlier : (name, entry) ∉ before := fun present =>
            absent (same ▸ List.mem_map_of_mem present)
          rw [or_iff_right earlier, Prod.ext_iff, and_iff_right same, Option.some.injEq, eq_comm]
      case isFalse differs =>
          rw [ih beforeDistinct, or_iff_left fun same => differs (congrArg Prod.fst same)]

theorem mem_ofEntries (distinct : entries.names.Nodup) :
    (name, entry) ∈ ofEntries entries ↔ (name, entry) ∈ entries := by
  rw [mem_iff_find?, find?_ofEntries_eq_some distinct]

/-- The entries of a table make the table again. -/
theorem ofEntries_entries (table : Table α) : ofEntries table.entries = table :=
  eq_of_mem fun _ => mem_ofEntries (nodup_names table)

section Slots

/-- The entries that are present among slots that may be empty. -/
def present (slots : List (String × Option α)) : Entries α :=
  slots.filterMap fun slot => slot.2.map (slot.1, ·)

variable {slots : List (String × Option α)} {others : Table α}

theorem mem_present : (name, entry) ∈ present slots ↔ (name, some entry) ∈ slots := by
  rw [present, List.mem_filterMap]
  constructor
  · rintro ⟨⟨other, found⟩, there, given⟩
    obtain ⟨_, rfl, same⟩ := Option.map_eq_some_iff.mp given
    obtain ⟨rfl, rfl⟩ := Prod.mk.inj same
    exact there
  · exact fun there => ⟨_, there, rfl⟩

theorem names_present_sublist (slots : List (String × Option α)) :
    (present slots).names.Sublist (slots.map (·.1)) := by
  induction slots with
  | nil => exact .slnil
  | cons slot rest ih =>
      obtain ⟨name, found⟩ := slot
      cases found with
      | none => exact ih.cons name
      | some entry => exact ih.cons_cons name

variable (distinct : (slots.map (·.1)).Nodup) (apart : ∀ other ∈ others, other.1 ∉ slots.map (·.1))

include distinct apart

theorem nodup_names_present_append : (present slots ++ others.entries).names.Nodup := by
  rw [Entries.names, List.map_append]
  refine (distinct.sublist (names_present_sublist slots)).append (nodup_names others) ?_
  intro name slot other
  obtain ⟨entry, there, rfl⟩ := List.mem_map.mp other
  exact apart entry there ((names_present_sublist slots).subset slot)

/-- In a table of slots and of other entries a slot is found as it was put, also if it is empty. -/
theorem find?_of_slot : ∀ slot ∈ slots, (ofEntries (present slots ++ others.entries)).find? slot.1 = slot.2 := by
  rintro ⟨name, found⟩ slot
  refine Option.ext fun entry => ?_
  have foreign : (name, entry) ∉ others.entries := fun other => apart _ other (List.mem_map_of_mem slot)
  rw [find?_ofEntries_eq_some (nodup_names_present_append distinct apart), List.mem_append, or_iff_left foreign,
    mem_present]
  constructor
  · exact fun there => congrArg Prod.snd (List.inj_on_of_nodup_map distinct slot there rfl)
  · rintro rfl
    exact slot

/-- In a table of slots and of other entries, those that are not slots are the others. -/
theorem filter_ofEntries {isSlot : String → Bool} (told : ∀ name, isSlot name = true ↔ name ∈ slots.map (·.1)) :
    (ofEntries (present slots ++ others.entries)).filter (fun entry => !isSlot entry.1) = others := by
  refine eq_of_mem ?_
  rintro ⟨name, entry⟩
  rw [mem_filter, mem_ofEntries (nodup_names_present_append distinct apart), List.mem_append, Bool.not_eq_true',
    ← Bool.not_eq_true, told]
  constructor
  · rintro ⟨slot | other, unnamed⟩
    · exact absurd (List.mem_map_of_mem (mem_present.mp slot)) unnamed
    · exact other
  · exact fun other => ⟨Or.inr other, apart _ other⟩

end Slots

end Table

end WebToken
