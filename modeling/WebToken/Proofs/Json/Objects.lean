import Mathlib.Data.List.Perm.Basic
import WebToken.Proofs.Json.Members
import WebToken.Proofs.Json.Spelling

/-!
Objects whose members are known but for their order. Each name is given once, with its value, and nothing
else is given; such an object can be written with its members in any order.
-/

namespace WebToken.Json

/-- The members of an object are those that are given, in any order: each has a name and a value with it. -/
def Holds (given : List (String × (Node → Prop))) (members : List (Body × Node)) : Prop :=
  ∃ order, order.Perm given ∧
    List.Forall₂ (fun slot member => member.1.read = .ok slot.1 ∧ slot.2 member.2) order members

/-- The text of a member spells a value as it is given. -/
def SpellsGiven (text : String × List Char) (slot : String × (Node → Prop)) : Prop :=
  text.1 = slot.1 ∧ ∃ node, Spells text.2 node ∧ slot.2 node

namespace Holds

variable {given : List (String × (Node → Prop))} {members : List (Body × Node)} {name : String}
  {value : Node → Prop}

theorem exists_under (held : Holds given members) (name : String) :
    ∃ slots, slots.Perm (given.filter (·.1 == name)) ∧
      List.Forall₂ (fun slot node => slot.2 node) slots (under name members) := by
  obtain ⟨order, perm, stands⟩ := held
  refine ⟨_, perm.filter _, ?_⟩
  clear perm
  induction stands with
  | nil => exact .nil
  | @cons slot member order members here _ ih =>
      obtain ⟨key, item⟩ := member
      obtain ⟨named, valued⟩ := here
      by_cases same : slot.1 = name
      · rw [List.filter_cons_of_pos (by simpa using same), under_cons_same (same ▸ named)]
        exact .cons valued ih
      · rw [List.filter_cons_of_neg (by simpa using same), under_cons_other named same]
        exact ih

/-- What stands under a name is given with it. -/
theorem of_mem_under (held : Holds given members) {node : Node} (present : node ∈ under name members) :
    ∃ value, (name, value) ∈ given ∧ value node := by
  obtain ⟨order, perm, stands⟩ := held
  suffices inOrder : ∃ value, (name, value) ∈ order ∧ value node by
    obtain ⟨value, there, valued⟩ := inOrder
    exact ⟨value, perm.mem_iff.mp there, valued⟩
  clear perm
  induction stands with
  | nil => cases present
  | @cons slot member order members here _ ih =>
      obtain ⟨key, item⟩ := member
      obtain ⟨named, valued⟩ := here
      have later : node ∈ under name members → ∃ value, (name, value) ∈ slot :: order ∧ value node := fun inside => by
        obtain ⟨value, there, valued⟩ := ih inside
        exact ⟨value, List.mem_cons_of_mem _ there, valued⟩
      by_cases same : slot.1 = name
      · subst same
        rw [under_cons_same named] at present
        cases List.mem_cons.mp present with
        | inl first => exact ⟨slot.2, List.mem_cons_self, first ▸ valued⟩
        | inr inside => exact later inside
      · rw [under_cons_other named same] at present
        exact later present

/-- A name that is given once has its value. -/
theorem under_eq_singleton (held : Holds given members) (once : given.filter (·.1 == name) = [(name, value)]) :
    ∃ node, under name members = [node] ∧ value node := by
  obtain ⟨slots, perm, stands⟩ := held.exists_under name
  obtain rfl := List.perm_singleton.mp (once ▸ perm)
  obtain ⟨node, nodes, valued, others, found⟩ := List.forall₂_cons_left_iff.mp stands
  obtain rfl := List.forall₂_nil_left_iff.mp others
  exact ⟨node, found, valued⟩

theorem under_eq_nil (held : Holds given members) (missing : given.filter (·.1 == name) = []) :
    under name members = [] := by
  obtain ⟨slots, perm, stands⟩ := held.exists_under name
  obtain rfl := List.perm_nil.mp (missing ▸ perm)
  exact List.forall₂_nil_left_iff.mp stands

theorem named (held : Holds given members) : ∀ member ∈ members, ∃ name, member.1.read = .ok name := by
  obtain ⟨order, perm, stands⟩ := held
  clear perm
  induction stands with
  | nil => exact nofun
  | cons here _ ih => exact List.forall_mem_cons.mpr ⟨⟨_, here.1⟩, ih⟩

/-- The texts of the members may be written in any order. -/
theorem of_perm {texts order : List (String × List Char)} (perm : order.Perm texts)
    (written : List.Forall₂ SpellsGiven texts given) :
    ∃ members, Spells (Text.members order) (.object members .closed) ∧ Holds given members := by
  obtain ⟨slots, written, slotsPerm⟩ := List.perm_comp_forall₂ perm written
  suffices built : ∃ members, List.Forall₂ SpellsMember order members ∧
      List.Forall₂ (fun slot member => member.1.read = .ok slot.1 ∧ slot.2 member.2) slots members by
    obtain ⟨members, spelled, stands⟩ := built
    exact ⟨members, .members spelled, slots, slotsPerm, stands⟩
  clear slotsPerm perm
  induction written with
  | nil => exact ⟨[], .nil, .nil⟩
  | @cons text slot _ _ here _ ih =>
      obtain ⟨named, node, spelled, valued⟩ := here
      obtain ⟨members, allSpelled, stands⟩ := ih
      exact ⟨(.quoted text.1, node) :: members, .cons ⟨rfl, spelled⟩ allSpelled,
        .cons ⟨named ▸ Body.read_quoted text.1, valued⟩ stands⟩

end Holds

namespace Scan

variable {atEnd : Fault} {members : List (Body × Node)} {ending : Ending}

theorem word_ne_object (name : Word) (letters bytes : Bytes) :
    (word atEnd name letters bytes).1 ≠ .object members ending := by
  fun_induction word atEnd name letters bytes with
  | case1 => exact nofun
  | case2 => exact nofun
  | case3 _ _ _ ih => exact ih
  | case4 => exact nofun

theorem leaf_ne_object (bytes : Bytes) : (leaf atEnd bytes).1 ≠ .object members ending := by
  unfold leaf
  split
  · exact nofun
  split
  · exact word_ne_object _ _ _
  split
  · exact word_ne_object _ _ _
  split
  · exact word_ne_object _ _ _
  split
  · split <;> exact nofun
  · exact nofun

/-- An object starts with a brace, behind white space. -/
theorem brace_of_object {steps : Nat} {bytes : Bytes} (found : (node atEnd steps bytes).1 = .object members ending) :
    ∃ after, afterBlanks bytes = 0x7B :: after := by
  cases steps with
  | zero => cases found
  | succ steps =>
      unfold node at found
      split at found
      · cases found
      · split at found <;> cases found
      · exact ⟨_, ‹_›⟩
      · exact absurd found (leaf_ne_object _)

end Scan

theorem Document.brace_of_object {atEnd : Fault} {bytes : Bytes} {members : List (Body × Node)} {ending : Ending}
    (found : (ofBytes bytes atEnd).root = .object members ending) :
    ∃ after, Scan.afterBlanks bytes = 0x7B :: after := by
  have scanned : (ofBytes bytes atEnd).root = (Scan.node atEnd (2 * bytes.length + 2) bytes).1 := by
    unfold ofBytes
    split <;> simp [*]
  exact Scan.brace_of_object (scanned.symm.trans found)

end WebToken.Json
