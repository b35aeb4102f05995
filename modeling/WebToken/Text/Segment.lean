/-!
Cutting text: at every separator, into words, and at its ends. White space is the Unicode property
of that name.
-/

namespace WebToken.Text

/-- The characters with the Unicode property White_Space. -/
def isBlank (c : Char) : Bool :=
  (0x09 ≤ c.toNat && c.toNat ≤ 0x0D) || c.toNat == 0x20 || c.toNat == 0x85 || c.toNat == 0xA0 ||
    c.toNat == 0x1680 || (0x2000 ≤ c.toNat && c.toNat ≤ 0x200A) || c.toNat == 0x2028 ||
    c.toNat == 0x2029 || c.toNat == 0x202F || c.toNat == 0x205F || c.toNat == 0x3000

/-- The pieces between the separators. There is one more piece than there are separators. -/
def pieces (isSeparator : Char → Bool) : List Char → List (List Char)
  | [] => [[]]
  | c :: rest =>
      if isSeparator c then [] :: pieces isSeparator rest
      else
        match pieces isSeparator rest with
        | [] => [[c]]
        | first :: others => (c :: first) :: others

def dotted (text : String) : List String := (pieces (· == '.') text.toList).map String.ofList

/-- The words of a text: its maximal runs without white space. -/
def words (text : String) : List String :=
  ((pieces isBlank text.toList).filter (!·.isEmpty)).map String.ofList

def trim (text : String) : String :=
  String.ofList ((text.toList.dropWhile isBlank).reverse.dropWhile isBlank).reverse

def joinDotted (parts : List String) : String := String.intercalate "." parts

theorem pieces_ne_nil (isSeparator : Char → Bool) (text : List Char) : pieces isSeparator text ≠ [] := by
  cases text with
  | nil => simp [pieces]
  | cons c rest =>
      unfold pieces
      split
      · simp
      · split <;> simp

theorem pieces_of_none {isSeparator : Char → Bool} {piece : List Char}
    (whole : ∀ c ∈ piece, isSeparator c = false) : pieces isSeparator piece = [piece] := by
  induction piece with
  | nil => rfl
  | cons c rest ih =>
      obtain ⟨ordinary, restWhole⟩ := List.forall_mem_cons.mp whole
      rw [pieces, ordinary, ih restWhole]
      rfl

/-- A separator ends a piece, so that what is on either side of it is cut by itself. -/
theorem pieces_append {isSeparator : Char → Bool} {separator : Char} (separates : isSeparator separator = true)
    (left right : List Char) :
    pieces isSeparator (left ++ separator :: right) = pieces isSeparator left ++ pieces isSeparator right := by
  induction left with
  | nil => simp only [List.nil_append, List.cons_append, pieces, if_pos separates]
  | cons c left ih =>
      obtain ⟨first, others, cut⟩ := List.exists_cons_of_ne_nil (pieces_ne_nil isSeparator left)
      rw [List.cons_append, pieces, pieces, ih, cut]
      split <;> rfl

theorem pieces_append_separator {isSeparator : Char → Bool} {piece : List Char} {separator : Char}
    (separates : isSeparator separator = true) (whole : ∀ c ∈ piece, isSeparator c = false)
    (rest : List Char) :
    pieces isSeparator (piece ++ separator :: rest) = piece :: pieces isSeparator rest := by
  rw [pieces_append separates, pieces_of_none whole, List.singleton_append]

/-- Cutting a text at the dots undoes joining pieces that hold none. -/
theorem dotted_joinDotted {parts : List String} (nonempty : parts ≠ [])
    (whole : ∀ part ∈ parts, '.' ∉ part.toList) : dotted (joinDotted parts) = parts := by
  have ordinary : ∀ part ∈ parts, ∀ c ∈ part.toList, (c == '.') = false := fun part present c inside =>
    beq_eq_false_iff_ne.mpr fun dot => whole part present (dot ▸ inside)
  clear whole
  induction parts with
  | nil => exact absurd rfl nonempty
  | cons first rest ih =>
      obtain ⟨firstOrdinary, restOrdinary⟩ := List.forall_mem_cons.mp ordinary
      cases rest with
      | nil =>
          rw [joinDotted, String.intercalate_singleton, dotted, pieces_of_none firstOrdinary]
          simp only [List.map_cons, List.map_nil, String.ofList_toList]
      | cons second others =>
          have tail := ih (List.cons_ne_nil _ _) restOrdinary
          rw [dotted, joinDotted] at tail
          have split : (String.intercalate "." (first :: second :: others)).toList =
              first.toList ++ '.' :: (String.intercalate "." (second :: others)).toList := by
            rw [String.intercalate_cons_cons, String.toList_append, String.toList_append, List.append_assoc]
            rfl
          rw [joinDotted, dotted, split, pieces_append_separator rfl firstOrdinary, List.map_cons,
            String.ofList_toList, tail]

theorem intercalate_pieces {isSeparator : Char → Bool} {separator : Char}
    (only : ∀ c, isSeparator c = true → c = separator) (text : List Char) :
    [separator].intercalate (pieces isSeparator text) = text := by
  induction text with
  | nil => rfl
  | cons c rest ih =>
      obtain ⟨first, others, cut⟩ := List.exists_cons_of_ne_nil (pieces_ne_nil isSeparator rest)
      rw [cut] at ih
      rw [pieces]
      split
      · rename_i separates
        rw [cut, only c separates, List.intercalate_cons_cons, ih]
        rfl
      · rw [cut]
        cases others <;> simp_all [List.intercalate_cons_cons]

theorem joinDotted_dotted (text : String) : joinDotted (dotted text) = text := by
  rw [← String.toList_inj, joinDotted, String.toList_intercalate, dotted, List.map_map]
  simpa using intercalate_pieces (fun c dot => beq_iff_eq.mp dot) text.toList

end WebToken.Text
