import WebToken.Text.Segment

/-!
Words of a text. Cutting at the separators gives the runs of other characters that cannot be made longer, and the
words are those runs between white space that are not empty.
-/

namespace WebToken.Text

/-- A run of characters that do not separate, which separators or the ends of the text stand around. -/
def IsRun (isSeparator : Char → Bool) (piece text : List Char) : Prop :=
  ∃ front back, text = front ++ piece ++ back ∧ (∀ c ∈ piece, isSeparator c = false) ∧
    (∀ c, front.getLast? = some c → isSeparator c = true) ∧ ∀ c, back.head? = some c → isSeparator c = true

/-- A word of a text: a maximal run without white space, of at least one character. -/
def IsWord (word text : String) : Prop := word ≠ "" ∧ IsRun isBlank word.toList text.toList

variable {isSeparator : Char → Bool} {piece text : List Char}

/-- A text holds no separator, or it begins with a run in front of one. -/
theorem whole_or_cut (isSeparator : Char → Bool) (text : List Char) :
    (∀ c ∈ text, isSeparator c = false) ∨ ∃ piece separator rest, text = piece ++ separator :: rest ∧
      (∀ c ∈ piece, isSeparator c = false) ∧ isSeparator separator = true := by
  induction text with
  | nil => exact Or.inl (List.forall_mem_nil _)
  | cons c text ih =>
      cases separates : isSeparator c with
      | true => exact Or.inr ⟨[], c, text, rfl, List.forall_mem_nil _, separates⟩
      | false =>
          rcases ih with whole | ⟨piece, separator, rest, rfl, whole, ends⟩
          · exact Or.inl (List.forall_mem_cons.mpr ⟨separates, whole⟩)
          · exact Or.inr ⟨c :: piece, separator, rest, rfl, List.forall_mem_cons.mpr ⟨separates, whole⟩, ends⟩

theorem IsRun.of_rest {front rest : List Char} {separator : Char} (separates : isSeparator separator = true)
    (run : IsRun isSeparator piece rest) : IsRun isSeparator piece (front ++ separator :: rest) := by
  obtain ⟨before, back, rfl, whole, opens, closes⟩ := run
  refine ⟨front ++ separator :: before, back, by simp, whole, fun c last => ?_, closes⟩
  rcases List.eq_nil_or_concat before with rfl | ⟨earlier, final, rfl⟩
  · rw [List.getLast?_concat, Option.some.injEq] at last
    exact last ▸ separates
  · rw [List.concat_eq_append] at opens last
    rw [← List.cons_append, ← List.append_assoc, List.getLast?_concat] at last
    exact opens c (List.getLast?_concat.trans last)

theorem isRun_of_mem_pieces (present : piece ∈ pieces isSeparator text) : IsRun isSeparator piece text := by
  induction length : text.length using Nat.strongRecOn generalizing text with
  | _ count ih =>
      rcases whole_or_cut isSeparator text with whole | ⟨first, separator, rest, rfl, whole, separates⟩
      · rw [pieces_of_none whole, List.mem_singleton] at present
        subst present
        exact ⟨[], [], by simp, whole, nofun, nofun⟩
      · rw [pieces_append_separator separates whole, List.mem_cons] at present
        rcases present with rfl | later
        · exact ⟨[], separator :: rest, by simp, whole, nofun, fun c head => Option.some.inj head ▸ separates⟩
        · refine IsRun.of_rest separates (ih rest.length ?_ later rfl)
          rw [← length, List.length_append, List.length_cons]
          omega

theorem mem_pieces_of_isRun (run : IsRun isSeparator piece text) : piece ∈ pieces isSeparator text := by
  obtain ⟨front, back, rfl, whole, opens, closes⟩ := run
  have behind : piece ∈ pieces isSeparator (piece ++ back) := by
    cases back with
    | nil => rw [List.append_nil, pieces_of_none whole, List.mem_singleton]
    | cons separator back =>
        rw [pieces_append_separator (closes separator rfl) whole]
        exact List.mem_cons_self
  rcases List.eq_nil_or_concat front with rfl | ⟨front, separator, rfl⟩
  · exact behind
  · rw [List.concat_eq_append] at opens ⊢
    rw [List.append_assoc, List.append_assoc, List.singleton_append,
      pieces_append (opens separator List.getLast?_concat)]
    exact List.mem_append_right _ behind

theorem mem_pieces : piece ∈ pieces isSeparator text ↔ IsRun isSeparator piece text :=
  ⟨isRun_of_mem_pieces, mem_pieces_of_isRun⟩

/-- The words of a text are its maximal runs without white space. -/
theorem mem_words {word text : String} : word ∈ words text ↔ IsWord word text := by
  rw [words, List.mem_map, IsWord]
  constructor
  · rintro ⟨run, present, rfl⟩
    obtain ⟨present, nonempty⟩ := List.mem_filter.mp present
    rw [String.toList_ofList]
    exact ⟨by simpa using nonempty, mem_pieces.mp present⟩
  · rintro ⟨nonempty, run⟩
    exact ⟨word.toList, List.mem_filter.mpr ⟨mem_pieces.mpr run, by simpa using nonempty⟩, String.ofList_toList⟩

/-- White space between two texts keeps their words apart. -/
theorem words_append (left right : String) {blank : Char} (blanks : isBlank blank = true) :
    words (left ++ String.singleton blank ++ right) = words left ++ words right := by
  have spelled : (left ++ String.singleton blank ++ right).toList = left.toList ++ blank :: right.toList := by simp
  rw [words, spelled, pieces_append blanks, List.filter_append, List.map_append, ← words, ← words]

theorem isWord_append {word left right : String} {blank : Char} (blanks : isBlank blank = true) :
    IsWord word (left ++ String.singleton blank ++ right) ↔ IsWord word left ∨ IsWord word right := by
  rw [← mem_words, words_append left right blanks, List.mem_append, mem_words, mem_words]

/-- A word holds at least one character, and none that is white space. -/
theorem IsWord.solid {word text : String} (spelled : IsWord word text) :
    word ≠ "" ∧ ∀ c ∈ word.toList, isBlank c = false := by
  obtain ⟨nonempty, _, _, _, whole, _⟩ := spelled
  exact ⟨nonempty, whole⟩

end WebToken.Text
