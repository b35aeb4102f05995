import WebToken.Proofs.Json.Members
import WebToken.Proofs.Json.Spelling
import WebToken.Proofs.Json.Tokens

/-!
Documents and the grammar. A document has nothing behind its value exactly if its bytes are a text of the grammar,
and then its tree has the shape of the text, so no text has two shapes. Steps are counted as for written texts: two
for each byte are enough.
-/

namespace WebToken.Json

/-- The shape of the value that a tree shows, none if reading stops inside or behind it. -/
def Node.shape? : Node → Option Shape
  | .word .null none => some .null
  | .word _ none => some .boolean
  | .number (.ok _) => some .number
  | .string body => if body.flaw = none then some .string else none
  | .array items .closed => some (.array items.length)
  | .object _ .closed => some .object
  | _ => none

namespace Scan

open Grammar

variable {atEnd : Fault} {steps : Nat} {bytes text before rest : Bytes}

theorem exists_blanks (bytes : Bytes) : ∃ before, Blanks before ∧ bytes = before ++ afterBlanks bytes :=
  ⟨bytes.takeWhile isBlank, fun _ present => List.all_eq_true.mp List.all_takeWhile _ present,
    List.takeWhile_append_dropWhile.symm⟩

theorem afterBlanks_append (blank : Blanks before) (rest : Bytes) : afterBlanks (before ++ rest) = afterBlanks rest :=
  List.dropWhile_append_of_pos blank

theorem afterBlanks_solid {byte : UInt8} (blank : Blanks before) (solid : isBlank byte = false) (rest : Bytes) :
    afterBlanks (before ++ byte :: rest) = byte :: rest :=
  (afterBlanks_append blank _).trans (afterBlanks_of_starts solid)

theorem afterBlanks_afterBlanks (bytes : Bytes) : afterBlanks (afterBlanks bytes) = afterBlanks bytes := by
  obtain ⟨before, blank, cut⟩ := exists_blanks bytes
  exact (afterBlanks_append blank _).symm.trans (congrArg afterBlanks cut.symm)

/-- White space in front of a value is passed over. -/
theorem node_congr {other : Bytes} (same : afterBlanks bytes = afterBlanks other) :
    node atEnd steps bytes = node atEnd steps other := by
  cases steps with
  | zero => rfl
  | succ steps => rw [node.eq_2, node.eq_2, same]

theorem items_afterBlanks : items atEnd steps (afterBlanks bytes) = items atEnd steps bytes := by
  cases steps with
  | zero => rfl
  | succ steps => rw [items.eq_2, items.eq_2, node_congr (afterBlanks_afterBlanks bytes)]

theorem members_afterBlanks : members atEnd steps (afterBlanks bytes) = members atEnd steps bytes := by
  cases steps with
  | zero => rfl
  | succ steps => rw [members.eq_2, members.eq_2, afterBlanks_afterBlanks]

theorem word_of_scanned {name : Word} {letters : Bytes} {root : Node}
    (scanned : word atEnd name letters bytes = (root, some rest)) :
    root = .word name none ∧ bytes = letters ++ rest := by
  fun_induction word atEnd name letters bytes with
  | case1 bytes =>
      obtain ⟨rfl, same⟩ := Prod.mk.inj scanned
      exact ⟨rfl, Option.some.inj same⟩
  | case2 => cases scanned
  | case3 letter letters bytes ih =>
      obtain ⟨rfl, rfl⟩ := ih scanned
      exact ⟨rfl, rfl⟩
  | case4 => cases scanned

/-- Some text of a value stands in front, and the tree has its shape. -/
def Found (root : Node) (bytes rest : Bytes) : Prop :=
  ∃ shape text, root.shape? = some shape ∧ Derives (.value shape) text ∧ bytes = text ++ rest

theorem found_of_leaf {root : Node} (scanned : leaf atEnd bytes = (root, some rest)) : Found root bytes rest := by
  unfold leaf at scanned
  split at scanned
  · cases scanned
  split at scanned
  · obtain ⟨rfl, rfl⟩ := word_of_scanned scanned
    subst ‹_ = (0x6E : UInt8)›
    exact ⟨_, _, rfl, .null, rfl⟩
  split at scanned
  · obtain ⟨rfl, rfl⟩ := word_of_scanned scanned
    subst ‹_ = (0x74 : UInt8)›
    exact ⟨_, _, rfl, .yes, rfl⟩
  split at scanned
  · obtain ⟨rfl, rfl⟩ := word_of_scanned scanned
    subst ‹_ = (0x66 : UInt8)›
    exact ⟨_, _, rfl, .no, rfl⟩
  split at scanned
  · split at scanned
    · rename_i numbered
      obtain ⟨rfl, same⟩ := Prod.mk.inj scanned
      obtain rfl := Option.some.inj same
      obtain ⟨text, number, cut⟩ := number_of_numeral numbered
      exact ⟨_, _, rfl, .number number, cut⟩
    · cases scanned
  · cases scanned

/-- What is scanned to its end is a text of the grammar. -/
structure Sound (atEnd : Fault) (steps : Nat) : Prop where
  value : ∀ {bytes root rest}, node atEnd steps bytes = (root, some rest) → Found root bytes rest
  items : ∀ {bytes found ending rest}, items atEnd steps bytes = ((found, ending), some rest) →
    ending = .closed ∧ ∃ text, Derives (.items found.length) text ∧ bytes = text ++ 0x5D :: rest
  members : ∀ {bytes found ending rest}, members atEnd steps bytes = ((found, ending), some rest) →
    ending = .closed ∧ ∃ text, Derives .members text ∧ bytes = text ++ 0x7D :: rest

/-- What stands in front of a byte that is no white space. -/
theorem blanks_of_afterBlanks {byte : UInt8} {after : Bytes} (found : afterBlanks bytes = byte :: after) :
    ∃ before, Blanks before ∧ bytes = before ++ byte :: after := by
  obtain ⟨before, blank, cut⟩ := exists_blanks bytes
  exact ⟨before, blank, by rw [cut.trans (congrArg _ found)]⟩

namespace Found

variable {root : Node} {after : Bytes}

/-- White space may stand in front of the text of a value, -/
theorem behind (blank : Blanks before) (found : Found root bytes rest) : Found root (before ++ bytes) rest := by
  obtain ⟨shape, text, shown, derived, rfl⟩ := found
  exact ⟨shape, before ++ (text ++ []), shown, .spaced blank derived nofun, by simp⟩

/-- and behind it. -/
theorem derives (found : Found root bytes rest) (blank : Blanks before) (cut : rest = before ++ after) :
    ∃ shape text, root.shape? = some shape ∧ Derives (.value shape) text ∧ bytes = text ++ after := by
  obtain ⟨shape, text, shown, derived, rfl⟩ := found
  exact ⟨shape, [] ++ (text ++ before), shown, .spaced nofun derived blank, by simp [cut]⟩

end Found

namespace Sound

variable {root : Node} {found : List Node} {entries : List (Body × Node)} {ending : Ending}

/-- Only behind the first byte that is no white space can the brackets be told apart. -/
theorem value_succ (smaller : Sound atEnd steps) (scanned : node atEnd (steps + 1) bytes = (root, some rest)) :
    Found root bytes rest := by
  obtain ⟨before, blank, cut⟩ := exists_blanks bytes
  rw [cut]
  refine .behind blank ?_
  rw [node.eq_2] at scanned
  split at scanned
  · rename_i after quote
    obtain ⟨rfl, closed⟩ := Prod.mk.inj scanned
    obtain ⟨text, chars, rfl⟩ := chars_of_body closed
    exact ⟨.string, _, if_pos (flaw_body closed), .string chars, by simp [quote]⟩
  · rename_i inside bracket
    rw [bracket]
    split at scanned
    · rename_i after closing
      obtain ⟨rfl, same⟩ := Prod.mk.inj scanned
      obtain rfl := Option.some.inj same
      obtain ⟨blanks, blank, rfl⟩ := blanks_of_afterBlanks closing
      exact ⟨_, _, rfl, .emptyArray blank, by simp⟩
    · cases scanned
    · rw [items_afterBlanks] at scanned
      obtain ⟨rfl, closed⟩ := Prod.mk.inj scanned
      obtain ⟨shut, text, derived, rfl⟩ := smaller.items (Prod.ext rfl closed)
      exact ⟨_, _, by rw [shut]; rfl, .array derived, by simp⟩
  · rename_i inside brace
    rw [brace]
    split at scanned
    · rename_i after closing
      obtain ⟨rfl, same⟩ := Prod.mk.inj scanned
      obtain rfl := Option.some.inj same
      obtain ⟨blanks, blank, rfl⟩ := blanks_of_afterBlanks closing
      exact ⟨_, _, rfl, .emptyObject blank, by simp⟩
    · rw [members_afterBlanks] at scanned
      obtain ⟨rfl, closed⟩ := Prod.mk.inj scanned
      obtain ⟨shut, text, derived, rfl⟩ := smaller.members (Prod.ext rfl closed)
      exact ⟨_, _, by rw [shut]; rfl, .object derived, by simp⟩
  · exact found_of_leaf scanned

theorem items_succ (smaller : Sound atEnd steps)
    (scanned : Scan.items atEnd (steps + 1) bytes = ((found, ending), some rest)) :
    ending = .closed ∧ ∃ text, Derives (.items found.length) text ∧ bytes = text ++ 0x5D :: rest := by
  rw [items.eq_2] at scanned
  split at scanned
  · cases scanned
  · rename_i item behind first
    split at scanned
    · rename_i others comma
      obtain ⟨blanks, blank, cut⟩ := blanks_of_afterBlanks comma
      obtain ⟨shape, text, _, derived, rfl⟩ := (smaller.value first).derives blank cut
      obtain ⟨same, closed⟩ := Prod.mk.inj scanned
      obtain ⟨rfl, rfl⟩ := Prod.mk.inj same
      obtain ⟨shut, tail, following, rfl⟩ := smaller.items (Prod.ext rfl closed)
      exact ⟨shut, _, .nextItem derived following, by simp⟩
    · rename_i after closing
      obtain ⟨blanks, blank, cut⟩ := blanks_of_afterBlanks closing
      obtain ⟨shape, text, _, derived, rfl⟩ := (smaller.value first).derives blank cut
      cases scanned
      exact ⟨rfl, _, .lastItem derived, rfl⟩
    · cases scanned
    · cases scanned

theorem members_succ (smaller : Sound atEnd steps)
    (scanned : Scan.members atEnd (steps + 1) bytes = ((entries, ending), some rest)) :
    ending = .closed ∧ ∃ text, Derives .members text ∧ bytes = text ++ 0x7D :: rest := by
  rw [members.eq_2] at scanned
  split at scanned
  · rename_i afterQuote quote
    obtain ⟨front, frontBlank, rfl⟩ := blanks_of_afterBlanks quote
    split at scanned
    · cases scanned
    · rename_i key named name
      obtain ⟨chars, isChars, rfl⟩ := chars_of_body (congrArg Prod.snd name)
      split at scanned
      · rename_i value colon
        obtain ⟨back, backBlank, rfl⟩ := blanks_of_afterBlanks colon
        have isName : Derives (.value .string) (front ++ (0x22 :: (chars ++ [0x22]) ++ back)) :=
          .spaced frontBlank (.string isChars) backBlank
        split at scanned
        · cases scanned
        · rename_i item behind first
          split at scanned
          · rename_i others comma
            obtain ⟨blanks, blank, cut⟩ := blanks_of_afterBlanks comma
            obtain ⟨shape, text, _, derived, rfl⟩ := (smaller.value first).derives blank cut
            obtain ⟨same, closed⟩ := Prod.mk.inj scanned
            obtain ⟨rfl, rfl⟩ := Prod.mk.inj same
            obtain ⟨shut, tail, following, rfl⟩ := smaller.members (Prod.ext rfl closed)
            exact ⟨shut, _, .nextMember isName derived following, by simp⟩
          · rename_i after closing
            obtain ⟨blanks, blank, cut⟩ := blanks_of_afterBlanks closing
            obtain ⟨shape, text, _, derived, rfl⟩ := (smaller.value first).derives blank cut
            cases scanned
            exact ⟨rfl, _, .lastMember isName derived, by simp⟩
          · cases scanned
          · cases scanned
      · cases scanned
      · cases scanned
  · cases scanned

theorem all (atEnd : Fault) (steps : Nat) : Sound atEnd steps := by
  induction steps with
  | zero => exact ⟨nofun, nofun, nofun⟩
  | succ steps smaller => exact ⟨smaller.value_succ, smaller.items_succ, smaller.members_succ⟩

end Sound

theorem exists_numeric (number : NumberText text) : ∃ first others, text = first :: others ∧ Numeric first := by
  obtain ⟨signed, isWhole, _, _⟩ := number
  rcases signed with rfl | rfl
  · obtain ⟨first, others, rfl⟩ := List.exists_cons_of_ne_nil isWhole.nonempty
    have digit : IsDigit first := isWhole.decimal first List.mem_cons_self
    exact ⟨first, _, rfl, Or.inr ⟨UInt8.le_iff_toNat_le.mp digit.1, UInt8.le_iff_toNat_le.mp digit.2⟩⟩
  · exact ⟨0x2D, _, rfl, Or.inl rfl⟩

/-- A text starts, behind white space, with a byte that does not close an array. -/
theorem exists_start {symbol : Symbol} (derived : Derives symbol text) (rest : Bytes) :
    ∃ first after, afterBlanks (text ++ rest) = first :: after ∧ first ≠ 0x5D := by
  induction derived generalizing rest with
  | number number =>
      obtain ⟨first, others, rfl, numeric⟩ := exists_numeric number
      have notBracket : first ≠ 0x5D := ne_of_numeric numeric (by decide) (by decide)
      exact ⟨first, _, afterBlanks_of_starts (isBlank_of_numeric numeric), notBracket⟩
  | @spaced shape before text after front _ _ ih =>
      rw [List.append_assoc, afterBlanks_append front, List.append_assoc]
      exact ih (after ++ rest)
  | lastItem _ ih => exact ih rest
  | nextItem _ _ ih _ =>
      rw [List.append_assoc]
      exact ih _
  | lastMember _ _ ih _ =>
      rw [List.append_assoc]
      exact ih _
  | nextMember _ _ _ ih _ _ =>
      rw [List.append_assoc]
      exact ih _
  | _ => exact ⟨_, _, rfl, by decide⟩

theorem exists_of_string {name : Bytes} (derived : Derives (.value .string) name) :
    ∃ front chars back, Blanks front ∧ Chars chars ∧ Blanks back ∧ name = front ++ 0x22 :: (chars ++ 0x22 :: back) := by
  generalize same : Symbol.value .string = symbol at derived
  induction derived with
  | string chars => exact ⟨[], _, [], nofun, chars, nofun, rfl⟩
  | @spaced shape before text after front _ back ih =>
      obtain ⟨outer, chars, inner, outerBlank, isChars, innerBlank, rfl⟩ := ih same
      refine ⟨before ++ outer, chars, inner ++ after, ?_, isChars, ?_, by simp⟩
      · exact List.forall_mem_append.mpr ⟨front, outerBlank⟩
      · exact List.forall_mem_append.mpr ⟨innerBlank, back⟩
  | _ => cases same

/-- A name is scanned up to the colon. -/
theorem exists_name {name : Bytes} (derived : Derives (.value .string) name) (rest : Bytes) :
    ∃ quoted key behind, afterBlanks (name ++ 0x3A :: rest) = 0x22 :: quoted ∧
      body .ended quoted = (key, some behind) ∧ afterBlanks behind = 0x3A :: rest := by
  obtain ⟨front, chars, back, frontBlank, isChars, backBlank, rfl⟩ := exists_of_string derived
  refine ⟨chars ++ 0x22 :: (back ++ 0x3A :: rest), (body .ended (chars ++ 0x22 :: (back ++ 0x3A :: rest))).1,
    back ++ 0x3A :: rest, ?_, ?_, ?_⟩
  · rw [List.append_assoc, List.cons_append, afterBlanks_solid frontBlank (by decide), List.append_assoc,
      List.cons_append]
  · exact Prod.ext rfl (body_of_chars isChars _)
  · exact afterBlanks_solid backBlank (by decide) rest

/-- The members of an object start with a quote. -/
theorem exists_quote (derived : Derives .members text) (rest : Bytes) :
    ∃ quoted, afterBlanks (text ++ rest) = 0x22 :: quoted := by
  cases derived with
  | lastMember named _ =>
      rw [List.append_assoc, List.cons_append]
      obtain ⟨quoted, _, _, starts, _⟩ := exists_name named _
      exact ⟨quoted, starts⟩
  | nextMember named _ _ =>
      rw [List.append_assoc, List.cons_append]
      obtain ⟨quoted, _, _, starts, _⟩ := exists_name named _
      exact ⟨quoted, starts⟩

/-- A value of a shape is scanned, and nothing but white space is lost behind it. -/
def Reaches (shape : Shape) (steps : Nat) (bytes rest : Bytes) : Prop :=
  ∃ root behind, node .ended steps bytes = (root, some behind) ∧ afterBlanks behind = afterBlanks rest ∧
    root.shape? = some shape

/-- A text of a symbol is scanned to its end, a value wherever it may end. -/
def Scans : Symbol → Bytes → Prop
  | .value shape, text =>
      ∀ steps rest, 2 * text.length ≤ steps → Ends rest → Reaches shape steps (text ++ rest) rest
  | .items size, text => ∀ steps rest, 2 * text.length < steps → ∃ found,
      items .ended steps (text ++ 0x5D :: rest) = ((found, .closed), some rest) ∧ found.length = size
  | .members, text => ∀ steps rest, 2 * text.length < steps → ∃ found,
      members .ended steps (text ++ 0x7D :: rest) = ((found, .closed), some rest)

theorem Scans.of_succ {shape : Shape} {first : UInt8}
    (scanned : ∀ steps rest, 2 * text.length + 1 ≤ steps → Ends rest →
      Reaches shape (steps + 1) (first :: (text ++ rest)) rest) : Scans (.value shape) (first :: text) := by
  intro steps rest enough ends
  rw [List.length_cons] at enough
  obtain ⟨steps, rfl⟩ := Nat.exists_eq_add_of_le' (Nat.le_trans (by omega) enough : 1 ≤ steps)
  exact scanned steps rest (by omega) ends

theorem ends_of_blank (blank : Blanks before) (ends : Ends rest) : Ends (before ++ rest) := by
  cases before with
  | nil => exact ends
  | cons first others =>
      intro byte next
      exact Or.inl (Option.some.inj next ▸ blank first List.mem_cons_self)

theorem ends_comma (rest : Bytes) : Ends (0x2C :: rest) := fun _ next => Or.inr (Or.inl (Option.some.inj next).symm)

theorem ends_bracket (rest : Bytes) : Ends (0x5D :: rest) :=
  fun _ next => Or.inr (Or.inr (Or.inl (Option.some.inj next).symm))

theorem ends_brace (rest : Bytes) : Ends (0x7D :: rest) :=
  fun _ next => Or.inr (Or.inr (Or.inr (Option.some.inj next).symm))

theorem scans_of_derives {symbol : Symbol} (derived : Derives symbol text) : Scans symbol text := by
  induction derived with
  | null => exact .of_succ fun _ rest _ _ => ⟨_, rest, rfl, rfl, rfl⟩
  | yes => exact .of_succ fun _ rest _ _ => ⟨_, rest, rfl, rfl, rfl⟩
  | no => exact .of_succ fun _ rest _ _ => ⟨_, rest, rfl, rfl, rfl⟩
  | number number =>
      obtain ⟨first, others, rfl, numeric⟩ := exists_numeric number
      refine .of_succ fun steps rest _ ends => ?_
      obtain ⟨found, scanned⟩ := exists_numeral number ends
      exact ⟨_, rest, node_number numeric scanned, rfl, rfl⟩
  | @string text chars =>
      refine .of_succ fun steps rest _ _ => ?_
      rw [List.append_assoc, List.singleton_append]
      have closed : (body .ended (text ++ 0x22 :: rest)).2 = some rest := body_of_chars chars rest
      exact ⟨_, rest, node_string.trans (congrArg (Prod.mk _) closed), rfl, if_pos (flaw_body closed)⟩
  | @emptyArray blanks blank =>
      refine .of_succ fun steps rest _ _ => ?_
      have closing : afterBlanks (blanks ++ 0x5D :: rest) = 0x5D :: rest := afterBlanks_solid blank (by decide) rest
      have opening : afterBlanks (0x5B :: (blanks ++ 0x5D :: rest)) = 0x5B :: (blanks ++ 0x5D :: rest) := rfl
      refine ⟨.array [] .closed, rest, ?_, rfl, rfl⟩
      rw [List.append_assoc, List.singleton_append, node.eq_2, opening]
      simp only [closing]
  | @array size text items ih =>
      refine .of_succ fun steps rest enough _ => ?_
      rw [List.append_assoc, List.singleton_append]
      obtain ⟨first, after, starts, nonempty⟩ := exists_start items (0x5D :: rest)
      rw [List.length_append, List.length_singleton] at enough
      obtain ⟨found, scanned, rfl⟩ := ih steps rest (by omega)
      rw [← items_afterBlanks, starts] at scanned
      exact ⟨_, rest, node_array starts nonempty scanned, rfl, rfl⟩
  | @emptyObject blanks blank =>
      refine .of_succ fun steps rest _ _ => ?_
      have closing : afterBlanks (blanks ++ 0x7D :: rest) = 0x7D :: rest := afterBlanks_solid blank (by decide) rest
      have opening : afterBlanks (0x7B :: (blanks ++ 0x7D :: rest)) = 0x7B :: (blanks ++ 0x7D :: rest) := rfl
      refine ⟨.object [] .closed, rest, ?_, rfl, rfl⟩
      rw [List.append_assoc, List.singleton_append, node.eq_2, opening]
      simp only [closing]
  | @object text members ih =>
      refine .of_succ fun steps rest enough _ => ?_
      rw [List.append_assoc, List.singleton_append]
      obtain ⟨quoted, starts⟩ := exists_quote members (0x7D :: rest)
      rw [List.length_append, List.length_singleton] at enough
      obtain ⟨found, scanned⟩ := ih steps rest (by omega)
      rw [← members_afterBlanks, starts] at scanned
      exact ⟨_, rest, node_object starts scanned, rfl, rfl⟩
  | @spaced shape before text after front value back ih =>
      intro steps rest enough ends
      simp only [List.length_append] at enough
      obtain ⟨root, behind, scanned, left, shown⟩ := ih steps (after ++ rest) (by omega) (ends_of_blank back ends)
      refine ⟨root, behind, ?_, left.trans (afterBlanks_append back rest), shown⟩
      rw [← scanned]
      refine node_congr ?_
      rw [List.append_assoc, afterBlanks_append front, List.append_assoc]
  | @lastItem shape text item ih =>
      intro steps rest enough
      obtain ⟨steps, rfl⟩ := Nat.exists_eq_succ_of_ne_zero (Nat.ne_of_gt (Nat.zero_lt_of_lt enough))
      obtain ⟨root, behind, scanned, left, _⟩ := ih steps _ (Nat.le_of_lt_succ enough) (ends_bracket rest)
      exact ⟨[root], items_last scanned left, rfl⟩
  | @nextItem shape text others size item rest ihItem ihRest =>
      intro steps rest enough
      obtain ⟨steps, rfl⟩ := Nat.exists_eq_succ_of_ne_zero (Nat.ne_of_gt (Nat.zero_lt_of_lt enough))
      rw [List.length_append, List.length_cons] at enough
      obtain ⟨root, behind, scanned, left, _⟩ := ihItem steps _ (by omega) (ends_comma (others ++ 0x5D :: rest))
      obtain ⟨found, following, rfl⟩ := ihRest steps rest (by omega)
      rw [List.append_assoc, List.cons_append]
      exact ⟨root :: found, items_next scanned left following, rfl⟩
  | @lastMember shape name text named item _ ih =>
      intro steps rest enough
      obtain ⟨steps, rfl⟩ := Nat.exists_eq_succ_of_ne_zero (Nat.ne_of_gt (Nat.zero_lt_of_lt enough))
      rw [List.length_append, List.length_cons] at enough
      obtain ⟨root, behind, scanned, left, _⟩ := ih steps _ (by omega) (ends_brace rest)
      obtain ⟨quoted, key, nameEnd, starts, keyed, colon⟩ := exists_name named (text ++ 0x7D :: rest)
      rw [List.append_assoc, List.cons_append]
      exact ⟨[(key, root)], members_last starts keyed colon scanned left⟩
  | @nextMember shape name text others named item rest _ ihItem ihRest =>
      intro steps rest enough
      obtain ⟨steps, rfl⟩ := Nat.exists_eq_succ_of_ne_zero (Nat.ne_of_gt (Nat.zero_lt_of_lt enough))
      simp only [List.length_append, List.length_cons] at enough
      obtain ⟨root, behind, scanned, left, _⟩ := ihItem steps _ (by omega) (ends_comma (others ++ 0x7D :: rest))
      obtain ⟨found, following⟩ := ihRest steps rest (by omega)
      obtain ⟨quoted, key, nameEnd, starts, keyed, colon⟩ :=
        exists_name named (text ++ 0x2C :: (others ++ 0x7D :: rest))
      simp only [List.append_assoc, List.cons_append]
      exact ⟨(key, root) :: found, members_next starts keyed colon scanned left following⟩

end Scan

open Scan (afterBlanks)

namespace Document

variable {bytes rest : Bytes} {root : Node}

theorem ofBytes_of_scanned (scanned : Scan.node .ended (2 * bytes.length + 2) bytes = (root, some rest)) :
    ofBytes bytes .ended = ⟨root, trailingOf .ended rest⟩ := by
  rw [ofBytes, scanned]

theorem trailingOf_eq_none : trailingOf .ended rest = none ↔ afterBlanks rest = [] := by
  unfold trailingOf
  split <;> simp_all

end Document

/-- A document that nothing trails is the text of a value of the shape that its tree shows. -/
theorem exists_isText {bytes : Bytes} (nothing : (Document.ofBytes bytes .ended).trailing = none) :
    ∃ shape, (Document.ofBytes bytes .ended).root.shape? = some shape ∧ IsText shape bytes := by
  rcases scanned : Scan.node .ended (2 * bytes.length + 2) bytes with ⟨root, _ | behind⟩
  · rw [Document.ofBytes, scanned] at nothing
    cases nothing
  · rw [Document.ofBytes_of_scanned scanned] at nothing ⊢
    obtain ⟨blanks, blank, cut⟩ := Scan.exists_blanks behind
    rw [Document.trailingOf_eq_none.mp nothing] at cut
    obtain ⟨shape, text, shown, derived, same⟩ := ((Scan.Sound.all _ _).value scanned).derives blank cut
    rw [List.append_nil] at same
    exact ⟨shape, shown, same ▸ derived⟩

/-- A document is a text of the grammar if its value is scanned to the end of the document; the tree then has the
shape of the text. -/
theorem isText_iff {shape : Shape} {bytes : Bytes} : IsText shape bytes ↔
    (Document.ofBytes bytes .ended).trailing = none ∧ (Document.ofBytes bytes .ended).root.shape? = some shape := by
  constructor
  · intro derived
    obtain ⟨root, behind, scanned, left, shown⟩ :=
      Scan.scans_of_derives derived (2 * bytes.length + 2) [] (by omega) nofun
    rw [List.append_nil] at scanned
    rw [Document.ofBytes_of_scanned scanned]
    exact ⟨Document.trailingOf_eq_none.mpr left, shown⟩
  · rintro ⟨nothing, shown⟩
    obtain ⟨found, seen, isText⟩ := exists_isText nothing
    obtain rfl := Option.some.inj (seen.symm.trans shown)
    exact isText

/-- No text has two shapes. -/
theorem IsText.unique {one other : Shape} {bytes : Bytes} (first : IsText one bytes) (second : IsText other bytes) :
    one = other :=
  Option.some.inj ((isText_iff.mp first).2.symm.trans (isText_iff.mp second).2)

end WebToken.Json
