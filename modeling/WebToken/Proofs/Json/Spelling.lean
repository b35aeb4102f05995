import Mathlib.Data.List.Defs
import WebToken.Proofs.Json.Numbers
import WebToken.Proofs.Json.Strings

/-!
Which tree a text spells. Strings, whole numbers, arrays and objects are scanned as what they were
written from, and a document that is one of them has nothing behind it.
-/

namespace WebToken.Json

open Scan (Delimited afterBlanks)

/-- A text spells a tree: wherever a value may end behind it, its bytes are scanned as the tree, and
two steps for each byte are enough. -/
structure Spells (text : List Char) (node : Node) : Prop where
  starts : ∃ first rest, Bytes.ofChars text = first :: rest ∧ Scan.isBlank first = false ∧ first ≠ 0x5D
  scans : ∀ steps rest, 2 * (Bytes.ofChars text).length ≤ steps → Delimited rest →
    Scan.node .ended steps (Bytes.ofChars text ++ rest) = (node, some rest)

namespace Scan

variable {steps : Nat} {rest inside behind value after : Bytes}

theorem afterBlanks_of_starts {first : UInt8} (starts : isBlank first = false) :
    afterBlanks (first :: rest) = first :: rest := by
  rw [afterBlanks, List.dropWhile_cons, starts]
  rfl

theorem node_string : node .ended (steps + 1) (0x22 :: rest) =
    (.string (body .ended rest).1, (body .ended rest).2) := rfl

/-- A number starts with a sign or a digit. -/
def Numeric (first : UInt8) : Prop := first = 0x2D ∨ 0x30 ≤ first.toNat ∧ first.toNat ≤ 0x39

theorem ne_of_numeric {first other : UInt8} (numeric : Numeric first) (notMinus : other ≠ 0x2D)
    (outside : other.toNat < 0x30 ∨ 0x39 < other.toNat) : first ≠ other := by
  intro same
  subst same
  rcases numeric with minus | digit
  · exact notMinus minus
  · omega

theorem isBlank_of_numeric {first : UInt8} (numeric : Numeric first) : isBlank first = false := by
  simp only [isBlank, Bool.or_eq_false_iff, beq_eq_false_iff_ne]
  refine ⟨⟨⟨?_, ?_⟩, ?_⟩, ?_⟩ <;> exact ne_of_numeric numeric (by decide) (by decide)

theorem node_number {first : UInt8} (numeric : Numeric first) {numeral : Numeral}
    (found : Scan.numeral .ended (first :: rest) = .ok (numeral, after)) :
    node .ended (steps + 1) (first :: rest) = (.number (.ok numeral), some after) := by
  have marks : (first = 0x2D || (0x30 ≤ first && first ≤ 0x39)) = true := by
    simpa [Numeric, UInt8.le_iff_toNat_le] using numeric
  have differs {mark : UInt8} (notMinus : mark ≠ 0x2D) (outside : mark.toNat < 0x30 ∨ 0x39 < mark.toNat) :
      first ≠ mark := ne_of_numeric numeric notMinus outside
  rw [node.eq_2, afterBlanks_of_starts (isBlank_of_numeric numeric)]
  split
  · rename_i same
    exact absurd (List.cons.inj same).1 (differs (by decide) (by decide))
  · rename_i same
    exact absurd (List.cons.inj same).1 (differs (by decide) (by decide))
  · rename_i same
    exact absurd (List.cons.inj same).1 (differs (by decide) (by decide))
  · rw [leaf, if_neg (differs (by decide) (by decide)), if_neg (differs (by decide) (by decide)),
      if_neg (differs (by decide) (by decide)), if_pos marks, found]

theorem node_array {first : UInt8} (starts : afterBlanks inside = first :: rest) (nonempty : first ≠ 0x5D)
    {nodes : List Node} {ending : Ending} {after : Option Bytes}
    (found : items .ended steps (first :: rest) = ((nodes, ending), after)) :
    node .ended (steps + 1) (0x5B :: inside) = (.array nodes ending, after) := by
  have opening : afterBlanks (0x5B :: inside) = 0x5B :: inside := rfl
  rw [node.eq_2, opening]
  simp only [starts]
  split
  · rename_i same
    exact absurd (List.cons.inj same).1 nonempty
  · rename_i same
    cases same
  · rw [found]

theorem node_object (starts : afterBlanks inside = 0x22 :: rest) {entries : List (Body × Node)} {ending : Ending}
    {after : Option Bytes} (found : members .ended steps (0x22 :: rest) = ((entries, ending), after)) :
    node .ended (steps + 1) (0x7B :: inside) = (.object entries ending, after) := by
  have opening : afterBlanks (0x7B :: inside) = 0x7B :: inside := rfl
  rw [node.eq_2, opening]
  simp only [starts]
  split
  · rename_i same
    exact absurd (List.cons.inj same).1 (by decide)
  · rw [found]

theorem items_last {item : Node} (found : node .ended steps rest = (item, some behind))
    (closing : afterBlanks behind = 0x5D :: after) :
    items .ended (steps + 1) rest = (([item], .closed), some after) := by
  rw [items.eq_2, found]
  simp only [closing]

theorem items_next {item : Node} (found : node .ended steps rest = (item, some behind))
    (comma : afterBlanks behind = 0x2C :: value) {nodes : List Node} {ending : Ending} {after : Option Bytes}
    (others : items .ended steps value = ((nodes, ending), after)) :
    items .ended (steps + 1) rest = ((item :: nodes, ending), after) := by
  rw [items.eq_2, found]
  simp only [comma, others]

section Members

variable {key : Body} {item : Node} {named : Bytes}

theorem members_last (starts : afterBlanks inside = 0x22 :: rest) (name : body .ended rest = (key, some named))
    (colon : afterBlanks named = 0x3A :: value) (found : node .ended steps value = (item, some behind))
    (closing : afterBlanks behind = 0x7D :: after) :
    members .ended (steps + 1) inside = (([(key, item)], .closed), some after) := by
  rw [members.eq_2, starts]
  simp only [name, colon, found, closing]

theorem members_next {next : Bytes} (starts : afterBlanks inside = 0x22 :: rest)
    (name : body .ended rest = (key, some named)) (colon : afterBlanks named = 0x3A :: value)
    (found : node .ended steps value = (item, some behind)) (comma : afterBlanks behind = 0x2C :: next)
    {entries : List (Body × Node)} {ending : Ending} {after : Option Bytes}
    (others : members .ended steps next = ((entries, ending), after)) :
    members .ended (steps + 1) inside = (((key, item) :: entries, ending), after) := by
  rw [members.eq_2, starts]
  simp only [name, colon, found, comma, others]

end Members

end Scan

def SpellsMember (entry : String × List Char) (member : Body × Node) : Prop :=
  member.1 = .quoted entry.1 ∧ Spells entry.2 member.2

namespace Scan

variable {steps : Nat}

theorem ofChars_separated (text second : List Char) (texts : List (List Char)) :
    Bytes.ofChars (Text.separated (text :: second :: texts)) =
      Bytes.ofChars text ++ 0x2C :: Bytes.ofChars (Text.separated (second :: texts)) := by
  rw [Text.separated, Bytes.ofChars_append]
  · rfl
  · exact List.cons_ne_nil _ _

theorem delimited_comma (rest : Bytes) : Delimited (0x2C :: rest) := Or.inr ⟨_, _, rfl, Or.inl rfl⟩

theorem delimited_bracket (rest : Bytes) : Delimited (0x5D :: rest) :=
  Or.inr ⟨_, _, rfl, Or.inr (Or.inl rfl)⟩

theorem delimited_brace (rest : Bytes) : Delimited (0x7D :: rest) :=
  Or.inr ⟨_, _, rfl, Or.inr (Or.inr rfl)⟩

theorem items_separated {texts : List (List Char)} {nodes : List Node} (nonempty : texts ≠ [])
    (spelled : List.Forall₂ Spells texts nodes)
    (enough : 2 * (Bytes.ofChars (Text.separated texts)).length < steps) (rest : Bytes) :
    items .ended steps (Bytes.ofChars (Text.separated texts) ++ 0x5D :: rest) =
      ((nodes, .closed), some rest) := by
  induction spelled generalizing steps with
  | nil => exact absurd rfl nonempty
  | @cons text node texts nodes first others ih =>
      obtain ⟨steps, rfl⟩ := Nat.exists_eq_succ_of_ne_zero (Nat.ne_of_gt (Nat.zero_lt_of_lt enough))
      cases texts with
      | nil =>
          cases others
          exact items_last (first.scans _ _ (Nat.le_of_lt_succ enough) (delimited_bracket rest)) rfl
      | cons second texts =>
          rw [ofChars_separated, List.length_append, List.length_cons] at enough
          have found := first.scans steps _ (by omega)
            (delimited_comma (Bytes.ofChars (Text.separated (second :: texts)) ++ 0x5D :: rest))
          have following := ih (List.cons_ne_nil _ _) (by omega : _ < steps)
          rw [ofChars_separated, List.append_assoc, List.cons_append, items_next found rfl following]

def memberText (entry : String × List Char) : List Char := Text.quote entry.1 ++ ':' :: entry.2

theorem ofChars_memberText (entry : String × List Char) :
    Bytes.ofChars (memberText entry) =
      0x22 :: (Bytes.ofChars (Text.quote entry.1).tail ++ 0x3A :: Bytes.ofChars entry.2) := by
  rw [memberText, Bytes.ofChars_append]
  rfl

theorem members_separated {entries : List (String × List Char)} {found : List (Body × Node)}
    (nonempty : entries ≠ []) (spelled : List.Forall₂ SpellsMember entries found)
    (enough : 2 * (Bytes.ofChars (Text.separated (entries.map memberText))).length < steps)
    (rest : Bytes) :
    members .ended steps (Bytes.ofChars (Text.separated (entries.map memberText)) ++ 0x7D :: rest) =
      ((found, .closed), some rest) := by
  induction spelled generalizing steps with
  | nil => exact absurd rfl nonempty
  | @cons entry member entries found first others ih =>
      obtain ⟨steps, rfl⟩ := Nat.exists_eq_succ_of_ne_zero (Nat.ne_of_gt (Nat.zero_lt_of_lt enough))
      obtain ⟨key, item⟩ := member
      obtain ⟨rfl, spelled⟩ := first
      cases entries with
      | nil =>
          cases others
          simp only [List.map_cons, List.map_nil, Text.separated, ofChars_memberText, List.length_cons,
            List.length_append, List.cons_append, List.append_assoc] at enough ⊢
          exact members_last rfl (body_quote entry.1) rfl (spelled.scans _ _ (by omega) (delimited_brace rest)) rfl
      | cons second entries =>
          simp only [List.map_cons, ofChars_separated, List.length_append, List.length_cons] at enough ih ⊢
          rw [ofChars_memberText, List.length_cons, List.length_append, List.length_cons] at enough
          have following := ih (List.cons_ne_nil _ _) (by omega : _ < steps)
          simp only [ofChars_memberText, List.cons_append, List.append_assoc]
          exact members_next rfl (body_quote entry.1) rfl (spelled.scans _ _ (by omega) (delimited_comma _)) rfl
            following

end Scan

namespace Spells

theorem null : Spells Value.null.write (.word .null none) where
  starts := ⟨0x6E, _, rfl, by decide, by decide⟩
  scans steps rest enough delimited := by
    obtain ⟨steps, rfl⟩ := Nat.exists_eq_add_of_le' (Nat.le_trans (by decide) enough : 1 ≤ steps)
    rfl

theorem quote (text : String) : Spells (Text.quote text) (.string (.quoted text)) where
  starts := ⟨0x22, _, rfl, by decide, by decide⟩
  scans steps rest enough delimited := by
    have opening : Bytes.ofChars (Text.quote text) = 0x22 :: Bytes.ofChars (Text.quote text).tail := rfl
    rw [opening, List.length_cons] at enough
    obtain ⟨steps, rfl⟩ := Nat.exists_eq_add_of_le' (Nat.le_trans (by omega) enough : 1 ≤ steps)
    rw [opening, List.cons_append, Scan.node_string, Scan.body_quote]

theorem whole (number : Int) : Spells (Text.whole number) (.number (.ok (.ofWhole number))) := by
  have starts : ∃ first rest, Bytes.ofChars (Text.whole number) = first :: rest ∧ Scan.Numeric first := by
    obtain ⟨first, rest, spelled, digit⟩ := Scan.exists_ofChars_toDigits number.natAbs
    rw [Text.whole]
    split
    · exact ⟨0x2D, _, rfl, Or.inl rfl⟩
    · exact ⟨first, rest, spelled, Or.inr digit⟩
  obtain ⟨first, others, spelled, numeric⟩ := starts
  constructor
  · exact ⟨first, others, spelled, Scan.isBlank_of_numeric numeric,
      Scan.ne_of_numeric numeric (by decide) (by decide)⟩
  · intro steps rest enough delimited
    have found := Scan.numeral_whole number delimited
    rw [spelled] at enough found ⊢
    rw [List.length_cons] at enough
    obtain ⟨steps, rfl⟩ := Nat.exists_eq_add_of_le' (Nat.le_trans (by omega) enough : 1 ≤ steps)
    exact Scan.node_number numeric found

theorem list {texts : List (List Char)} {nodes : List Node} (spelled : List.Forall₂ Spells texts nodes) :
    Spells (Text.list texts) (.array nodes .closed) where
  starts := ⟨0x5B, _, rfl, by decide, by decide⟩
  scans steps rest enough delimited := by
    have opening : Bytes.ofChars (Text.list texts) =
        0x5B :: (Bytes.ofChars (Text.separated texts) ++ [0x5D]) := by
      rw [Text.list, List.cons_append, Bytes.ofChars_cons, Bytes.ofChars_append]
      rfl
    rw [opening, List.length_cons, List.length_append, List.length_singleton] at enough
    obtain ⟨steps, rfl⟩ := Nat.exists_eq_add_of_le' (Nat.le_trans (by omega) enough : 1 ≤ steps)
    rw [opening, List.cons_append, List.append_assoc]
    cases spelled with
    | nil => rfl
    | @cons text node texts nodes first others =>
        obtain ⟨byte, after, starts, notBlank, notClosing⟩ : ∃ byte after,
            Bytes.ofChars (Text.separated (text :: texts)) = byte :: after ∧ Scan.isBlank byte = false ∧
              byte ≠ 0x5D := by
          obtain ⟨byte, after, starts, ordinary⟩ := first.starts
          cases texts with
          | nil => exact ⟨byte, after, starts, ordinary⟩
          | cons second texts =>
              rw [Scan.ofChars_separated, starts]
              exact ⟨byte, _, rfl, ordinary⟩
        have found := Scan.items_separated (List.cons_ne_nil _ _) (.cons first others) (by omega : _ < steps) rest
        rw [starts] at found ⊢
        exact Scan.node_array (Scan.afterBlanks_of_starts notBlank) notClosing found

theorem members {entries : List (String × List Char)} {members : List (Body × Node)}
    (spelled : List.Forall₂ SpellsMember entries members) :
    Spells (Text.members entries) (.object members .closed) where
  starts := ⟨0x7B, _, rfl, by decide, by decide⟩
  scans steps rest enough delimited := by
    have opening : Bytes.ofChars (Text.members entries) =
        0x7B :: (Bytes.ofChars (Text.separated (entries.map Scan.memberText)) ++ [0x7D]) := by
      rw [Text.members, List.cons_append, Bytes.ofChars_cons, Bytes.ofChars_append]
      rfl
    rw [opening, List.length_cons, List.length_append, List.length_singleton] at enough
    obtain ⟨steps, rfl⟩ := Nat.exists_eq_add_of_le' (Nat.le_trans (by omega) enough : 1 ≤ steps)
    rw [opening, List.cons_append, List.append_assoc]
    cases spelled with
    | nil => rfl
    | @cons entry member entries members first others =>
        have found := Scan.members_separated (List.cons_ne_nil _ _) (.cons first others) (by omega : _ < steps) rest
        obtain ⟨after, starts⟩ : ∃ after,
            Bytes.ofChars (Text.separated ((entry :: entries).map Scan.memberText)) = 0x22 :: after := by
          cases entries with
          | nil => exact ⟨_, Scan.ofChars_memberText entry⟩
          | cons second entries =>
              simp only [List.map_cons, Scan.ofChars_separated, Scan.ofChars_memberText entry]
              exact ⟨_, rfl⟩
        rw [starts] at found ⊢
        exact Scan.node_object rfl found

theorem ofBytes {text : List Char} {node : Node} (spelled : Spells text node) :
    Document.ofBytes (Bytes.ofChars text) .ended = ⟨node, none⟩ := by
  have scanned := spelled.scans (2 * (Bytes.ofChars text).length + 2) [] (by omega) (Or.inl rfl)
  rw [List.append_nil] at scanned
  rw [Document.ofBytes, scanned]
  rfl

/-- Reading a document is reading the tree that it spells. -/
theorem read {α : Type} {text : List Char} {node : Node} (spelled : Spells text node)
    (reader : Node → Except Fault α) : Json.read reader (Bytes.ofChars text) = reader node := by
  rw [Json.read, spelled.ofBytes]
  exact bind_pure (reader node)

end Spells

end WebToken.Json
