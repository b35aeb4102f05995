import WebToken.Text.Base64Url
import WebToken.Text.Segment

/-!
Segments of tokens: base64url texts joined by dots. Neither trimming nor looking for a brace finds
anything in them, and cutting at the dots gives them back.
-/

namespace WebToken.Text

/-- A character that neither separates segments nor starts a document nor is trimmed. -/
def Plain (c : Char) : Prop := c ≠ '.' ∧ c ≠ '{' ∧ isBlank c = false

theorem plain_digit {value : Nat} (bound : value < 64) : Plain (Base64Url.digit value) := by
  unfold Plain
  revert value
  decide

theorem plain_of_mem_encode {bytes : Bytes} : ∀ c ∈ (Base64Url.encode bytes).toList, Plain c := by
  intro c present
  rw [Base64Url.encode, String.toList_ofList] at present
  obtain ⟨value, member, rfl⟩ := List.mem_map.mp present
  exact plain_digit (Base64Url.sextets_lt value member)

/-- Segments hold plain characters only. -/
def Segments (parts : List String) : Prop := ∀ part ∈ parts, ∀ c ∈ part.toList, Plain c

theorem segments_encode (parts : List Bytes) : Segments (parts.map Base64Url.encode) := by
  intro part present
  obtain ⟨bytes, _, rfl⟩ := List.mem_map.mp present
  exact plain_of_mem_encode

variable {parts : List String}

theorem mem_joinDotted (segments : Segments parts) :
    ∀ c ∈ (joinDotted parts).toList, c = '.' ∨ Plain c := by
  unfold joinDotted
  induction parts with
  | nil => simp
  | cons first rest ih =>
      obtain ⟨firstPlain, restPlain⟩ := List.forall_mem_cons.mp segments
      cases rest with
      | nil =>
          rw [String.intercalate_singleton]
          exact fun c present => Or.inr (firstPlain c present)
      | cons second others =>
          rw [String.intercalate_cons_cons, String.toList_append, String.toList_append]
          intro c present
          rcases List.mem_append.mp present with front | tail
          · rcases List.mem_append.mp front with inside | dot
            · exact Or.inr (firstPlain c inside)
            · exact Or.inl (List.mem_singleton.mp dot)
          · exact ih restPlain c tail

theorem trim_of_unblank {text : String} (unblank : ∀ c ∈ text.toList, isBlank c = false) :
    trim text = text := by
  have kept (chars : List Char) (unblank : ∀ c ∈ chars, isBlank c = false) : chars.dropWhile isBlank = chars := by
    cases chars with
    | nil => rfl
    | cons c chars => rw [List.dropWhile_cons, unblank c List.mem_cons_self]; rfl
  rw [trim, kept _ unblank, kept _ (by simpa using unblank), List.reverse_reverse, String.ofList_toList]

/-- White space at the ends of a text does not change what is left after trimming. -/
theorem trim_surround {front back : String} (text : String) (before : ∀ c ∈ front.toList, isBlank c = true)
    (after : ∀ c ∈ back.toList, isBlank c = true) : trim (front ++ text ++ back) = trim text := by
  have skipped : (front ++ text ++ back).toList.dropWhile isBlank =
      (text.toList ++ back.toList).dropWhile isBlank := by
    rw [String.toList_append, String.toList_append, List.append_assoc, List.dropWhile_append_of_pos before]
  have backward : ∀ c ∈ back.toList.reverse, isBlank c = true := fun c present => after c (List.mem_reverse.mp present)
  rw [trim, trim, skipped, List.dropWhile_append]
  cases inner : text.toList.dropWhile isBlank with
  | nil =>
      have nothing : back.toList.dropWhile isBlank = [] := by
        rw [← List.append_nil back.toList, List.dropWhile_append_of_pos after, List.dropWhile_nil]
      rw [List.isEmpty_nil, if_pos rfl, nothing]
  | cons c rest =>
      rw [List.isEmpty_cons, if_neg Bool.false_ne_true, List.reverse_append, List.dropWhile_append_of_pos backward]

theorem trim_enclosed {first last : Char} (middle : List Char) (opening : isBlank first = false)
    (closing : isBlank last = false) :
    trim (String.ofList (first :: middle ++ [last])) = String.ofList (first :: middle ++ [last]) := by
  have front : (first :: middle ++ [last]).dropWhile isBlank = first :: middle ++ [last] := by
    rw [List.cons_append, List.dropWhile_cons, opening]
    rfl
  have back : (first :: middle ++ [last]).reverse.dropWhile isBlank = (first :: middle ++ [last]).reverse := by
    rw [List.reverse_concat, List.dropWhile_cons, closing]
    rfl
  rw [trim, String.toList_ofList, front, back, List.reverse_reverse]

/-- What is left after trimming does not start with white space. -/
theorem isBlank_head_trim {text : String} {c : Char} (front : (trim text).toList.head? = some c) :
    isBlank c = false := by
  obtain ⟨rest, cut⟩ : ∃ rest, text.toList.dropWhile isBlank = (trim text).toList ++ rest := by
    obtain ⟨skipped, same⟩ := List.dropWhile_suffix isBlank (l := (text.toList.dropWhile isBlank).reverse)
    refine ⟨skipped.reverse, ?_⟩
    rw [trim, String.toList_ofList, ← List.reverse_append, same, List.reverse_reverse]
  have kept : (text.toList.dropWhile isBlank).head? = some c := by rw [cut, List.head?_append, front]; rfl
  simpa [kept] using List.head?_dropWhile_not isBlank text.toList

theorem trim_joinDotted (segments : Segments parts) : trim (joinDotted parts) = joinDotted parts := by
  refine trim_of_unblank fun c present => ?_
  rcases mem_joinDotted segments c present with rfl | plain
  · decide
  · exact plain.2.2

theorem head?_joinDotted (segments : Segments parts) : (joinDotted parts).toList.head? ≠ some '{' := by
  intro braced
  rcases mem_joinDotted segments '{' (List.mem_of_mem_head? braced) with dot | plain
  · cases dot
  · exact plain.2.1 rfl

theorem dotted_segments (nonempty : parts ≠ []) (segments : Segments parts) :
    dotted (joinDotted parts) = parts :=
  dotted_joinDotted nonempty fun part present dot => (segments part present '.' dot).1 rfl

theorem exists_dotted_of_head? {text : String} {c : Char} (front : text.toList.head? = some c) (inside : c ≠ '.') :
    ∃ first others, dotted text = first :: others ∧ first.toList.head? = some c := by
  obtain ⟨rest, spelled⟩ := List.head?_eq_some_iff.mp front
  obtain ⟨first, others, cut⟩ := List.exists_cons_of_ne_nil (pieces_ne_nil (· == '.') rest)
  refine ⟨String.ofList (c :: first), others.map String.ofList, ?_, ?_⟩
  · rw [dotted, spelled, pieces, if_neg (by simpa using inside), cut]
    rfl
  · rw [String.toList_ofList, List.head?_cons]

theorem decode?_of_head? {text : String} {c : Char} (front : text.toList.head? = some c)
    (foreign : Base64Url.value? c = none) : Base64Url.decode? text = none := by
  obtain ⟨rest, spelled⟩ := List.head?_eq_some_iff.mp front
  rw [Base64Url.decode?, spelled, List.mapM_cons, foreign]
  rfl

end WebToken.Text
