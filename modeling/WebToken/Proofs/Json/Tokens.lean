import WebToken.Checked
import WebToken.Proofs.Json.Grammar

/-!
Strings and numbers of the grammar. Each is scanned to its end exactly if it is a text of the grammar, whatever
stands behind it, as long as a number may end there.
-/

namespace WebToken.Json.Scan

open Grammar

variable {atEnd : Fault} {bytes text rest : Bytes}

theorem isSome_hexValue? {digit : UInt8} : (hexValue? digit).isSome = true ↔ IsHexDigit digit := by
  unfold hexValue? IsHexDigit IsDigit
  grind

theorem isSome_unescape? {letter : UInt8} : (unescape? letter).isSome = true ↔ letter ∈ escapes := by
  simp only [unescape?, escapes, List.mem_cons, List.not_mem_nil, or_false]
  grind

theorem isSome_codeOf? {a b c d : UInt8} :
    (codeOf? a b c d).isSome = true ↔ ∀ digit ∈ [a, b, c, d], IsHexDigit digit := by
  simp only [← isSome_hexValue?, List.forall_mem_cons, List.not_mem_nil, false_implies, implies_true, and_true]
  unfold codeOf?
  cases hexValue? a <;> cases hexValue? b <;> cases hexValue? c <;> cases hexValue? d <;> simp

theorem push_snd (piece : Piece) (scan : Scan Body) : (push piece scan).2 = scan.2 := rfl

theorem push_flaw (piece : Piece) (scan : Scan Body) : (push piece scan).1.flaw = scan.1.flaw := rfl

/-- A string that is scanned to its end has a closing quote. -/
theorem flaw_body (closed : (body atEnd bytes).2 = some rest) : (body atEnd bytes).1.flaw = none := by
  fun_induction body atEnd bytes <;> simp_all [push_snd, push_flaw]

theorem chars_of_body (closed : (body atEnd bytes).2 = some rest) :
    ∃ text, Chars text ∧ bytes = text ++ 0x22 :: rest := by
  fun_induction body atEnd bytes with
  | case2 after =>
      obtain rfl := Option.some.inj closed
      exact ⟨[], .nil, rfl⟩
  | case4 a b c d after number found ih =>
      obtain ⟨text, chars, rfl⟩ := ih closed
      exact ⟨_, .code (isSome_codeOf?.mp (Option.isSome_iff_exists.mpr ⟨number, found⟩)) chars, rfl⟩
  | case7 letter after _ _ byte found ih =>
      obtain ⟨text, chars, rfl⟩ := ih closed
      exact ⟨_, .escape (isSome_unescape?.mp (Option.isSome_iff_exists.mpr ⟨byte, found⟩)) chars, rfl⟩
  | case10 byte after notQuote alone _ escaped printable ih =>
      obtain ⟨text, chars, rfl⟩ := ih closed
      have notBackslash : byte ≠ 0x5C := by
        rintro rfl
        cases text with
        | nil => exact escaped _ _ rfl rfl
        | cons letter others => exact escaped _ _ rfl rfl
      exact ⟨_, .plain (UInt8.not_lt.mp printable) notQuote notBackslash chars, rfl⟩
  | _ => cases closed

theorem body_of_chars {text : Bytes} (chars : Chars text) (rest : Bytes) :
    (body atEnd (text ++ 0x22 :: rest)).2 = some rest := by
  induction chars with
  | nil => rfl
  | @plain byte text printable notQuote notBackslash _ ih =>
      rw [List.cons_append, body.eq_6 atEnd byte _ notQuote (fun same => absurd same notBackslash)
        (fun _ _ _ _ _ same => absurd same notBackslash) (fun _ _ same => absurd same notBackslash),
        if_neg (UInt8.not_lt.mpr printable), push_snd, ih]
  | @escape letter text known _ ih =>
      obtain ⟨byte, found⟩ := Option.isSome_iff_exists.mp (isSome_unescape?.mpr known)
      have notCode : letter ≠ 0x75 := by
        rintro rfl
        cases found
      rw [List.cons_append, List.cons_append, body.eq_5 atEnd letter _ fun _ _ _ _ _ same => absurd same notCode,
        if_neg notCode, found]
      exact ih
  | @code a b c d text hex _ ih =>
      obtain ⟨number, found⟩ := Option.isSome_iff_exists.mp (isSome_codeOf?.mpr hex)
      simp only [List.cons_append]
      rw [body.eq_4, found]
      exact ih

/-- Where a value may end: at the end of the text, and in front of white space, a comma or a closing bracket. -/
def Ends (rest : Bytes) : Prop :=
  ∀ byte ∈ rest.head?, isBlank byte = true ∨ byte = 0x2C ∨ byte = 0x5D ∨ byte = 0x7D

/-- What a number goes on with is neither a digit nor a point nor a mark. -/
def Foreign (byte : UInt8) : Prop := ¬IsDigit byte ∧ byte ≠ 0x2E ∧ marksExponent byte = false

theorem Ends.foreign (ends : Ends rest) {byte : UInt8} (next : byte ∈ rest.head?) : Foreign byte := by
  rcases ends byte next with blank | rfl | rfl | rfl
  · simp only [isBlank, Bool.or_eq_true, beq_iff_eq] at blank
    rcases blank with ((rfl | rfl) | rfl) | rfl <;> (unfold Foreign IsDigit; decide)
  all_goals (unfold Foreign IsDigit; decide)

theorem exists_digits (bytes : Bytes) : ∃ text, (∀ byte ∈ text, IsDigit byte) ∧ bytes = text ++ (digits bytes).2 ∧
    (digits bytes).1 = text.map fun byte => byte.toNat - 0x30 := by
  refine ⟨bytes.takeWhile fun byte => 0x30 ≤ byte && byte ≤ 0x39, fun byte present => ?_, ?_, rfl⟩
  · simpa [IsDigit] using List.all_eq_true.mp List.all_takeWhile byte present
  · exact List.takeWhile_append_dropWhile.symm

theorem digits_append (decimal : ∀ byte ∈ text, IsDigit byte) (stops : ∀ byte ∈ rest.head?, ¬IsDigit byte) :
    digits (text ++ rest) = (text.map fun byte => byte.toNat - 0x30, rest) := by
  have all : ∀ byte ∈ text, (0x30 ≤ byte && byte ≤ 0x39) = true := by simpa [IsDigit] using decimal
  have nothing : rest.takeWhile (fun byte => 0x30 ≤ byte && byte ≤ 0x39) = [] ∧
      rest.dropWhile (fun byte => 0x30 ≤ byte && byte ≤ 0x39) = rest := by
    cases rest with
    | nil => exact ⟨rfl, rfl⟩
    | cons byte after =>
        have foreign : (0x30 ≤ byte && byte ≤ 0x39) = false := by
          simpa [IsDigit] using stops byte rfl
        rw [List.takeWhile_cons, List.dropWhile_cons, foreign]
        exact ⟨rfl, rfl⟩
  simp only [digits]
  rw [List.takeWhile_append_of_pos all, List.dropWhile_append_of_pos all, nothing.1, nothing.2, List.append_nil]

/-- Digits are found exactly where a text of digits stands. -/
theorem digits_of_scanned {found : List Nat} (scanned : digits bytes = (found, rest)) (some : found ≠ []) :
    ∃ text, Digits text ∧ bytes = text ++ rest := by
  obtain ⟨text, decimal, cut, spelled⟩ := exists_digits bytes
  rw [scanned] at cut spelled
  refine ⟨text, ⟨?_, decimal⟩, cut⟩
  rintro rfl
  exact some spelled

theorem fraction_of_scanned {found : List Nat} (scanned : fraction atEnd bytes = .ok (found, rest)) :
    ∃ text, Fraction text ∧ bytes = text ++ rest := by
  unfold fraction at scanned
  split at scanned
  · split at scanned
    · cases scanned
    · rename_i notEmpty
      obtain ⟨text, isDigits, rfl⟩ := digits_of_scanned (Except.ok.inj scanned) (by
        rintro rfl
        exact notEmpty _ (Except.ok.inj scanned))
      exact ⟨_, .point isDigits, rfl⟩
  · obtain ⟨_, rfl⟩ := Prod.mk.inj (Except.ok.inj scanned)
    exact ⟨[], .none, rfl⟩

theorem exists_fraction (isFraction : Fraction text) (stops : ∀ byte ∈ rest.head?, ¬IsDigit byte ∧ byte ≠ 0x2E) :
    ∃ found, fraction atEnd (text ++ rest) = .ok (found, rest) := by
  cases isFraction with
  | none =>
      refine ⟨[], ?_⟩
      unfold fraction
      split
      · rename_i same
        rw [List.nil_append] at same
        exact absurd rfl (stops 0x2E (same ▸ rfl)).2
      · rfl
  | @point text isDigits =>
      refine ⟨text.map fun byte => byte.toNat - 0x30, ?_⟩
      have found := digits_append isDigits.decimal fun byte next => (stops byte next).1
      rw [List.cons_append, fraction, found]
      split
      · rename_i empty
        exact absurd (List.map_eq_nil_iff.mp (Prod.mk.inj empty).1) isDigits.nonempty
      · rfl

/-- The sign of an exponent and what stands behind it. -/
def splitSign (bytes : Bytes) : Bool × Bytes :=
  match bytes with
  | 0x2D :: rest => (true, rest)
  | 0x2B :: rest => (false, rest)
  | _ => (false, bytes)

theorem exponent_of_mark {mark : UInt8} (marks : marksExponent mark = true) :
    exponent atEnd (mark :: bytes) =
      match digits (splitSign bytes).2 with
      | ([], after) => .error (needsDigit atEnd after)
      | (found, after) => .ok (some ((splitSign bytes).1, found), after) := by
  unfold exponent splitSign
  dsimp only
  rw [if_pos marks]
  rfl

theorem exponent_of_scanned {found : Option (Bool × List Nat)} (scanned : exponent atEnd bytes = .ok (found, rest)) :
    ∃ text, Exponent text ∧ bytes = text ++ rest := by
  cases bytes with
  | nil =>
      obtain ⟨_, rfl⟩ := Prod.mk.inj (Except.ok.inj scanned)
      exact ⟨[], .none, rfl⟩
  | cons mark bytes =>
      by_cases marks : marksExponent mark = true
      · have marked : mark = 0x65 ∨ mark = 0x45 := by simpa [marksExponent] using marks
        obtain ⟨sign, signed, cut⟩ : ∃ sign, (sign = [] ∨ sign = [0x2B] ∨ sign = [0x2D]) ∧
            bytes = sign ++ (splitSign bytes).2 := by
          unfold splitSign
          split
          · exact ⟨[0x2D], Or.inr (Or.inr rfl), rfl⟩
          · exact ⟨[0x2B], Or.inr (Or.inl rfl), rfl⟩
          · exact ⟨[], Or.inl rfl, rfl⟩
        rw [exponent_of_mark marks] at scanned
        split at scanned
        · cases scanned
        · rename_i found last notEmpty same
          obtain ⟨_, rfl⟩ := Prod.mk.inj (Except.ok.inj scanned)
          obtain ⟨text, isDigits, spelled⟩ := digits_of_scanned same (by
            rintro rfl
            exact notEmpty rfl)
          refine ⟨_, .power marked signed isDigits, ?_⟩
          rw [cut, spelled, List.cons_append, List.append_assoc]
      · unfold exponent at scanned
        dsimp only at scanned
        rw [if_neg marks] at scanned
        obtain ⟨_, rfl⟩ := Prod.mk.inj (Except.ok.inj scanned)
        exact ⟨[], .none, rfl⟩

theorem splitSign_append {sign : Bytes} (signed : sign = [] ∨ sign = [0x2B] ∨ sign = [0x2D]) (isDigits : Digits text)
    (rest : Bytes) : (splitSign (sign ++ (text ++ rest))).2 = text ++ rest := by
  rcases signed with rfl | rfl | rfl
  · obtain ⟨first, others, rfl⟩ := List.exists_cons_of_ne_nil isDigits.nonempty
    have digit : IsDigit first := isDigits.decimal first List.mem_cons_self
    unfold splitSign
    split
    · rename_i same
      obtain rfl := (List.cons.inj same).1
      exact absurd digit (by unfold IsDigit; decide)
    · rename_i same
      obtain rfl := (List.cons.inj same).1
      exact absurd digit (by unfold IsDigit; decide)
    · rfl
  · rfl
  · rfl

theorem exists_exponent (isExponent : Exponent text) (ends : Ends rest) :
    ∃ found, exponent atEnd (text ++ rest) = .ok (found, rest) := by
  cases isExponent with
  | none =>
      refine ⟨none, ?_⟩
      cases rest with
      | nil => rfl
      | cons byte after =>
          unfold exponent
          rw [List.nil_append]
          simp only [(ends.foreign rfl).2.2, Bool.false_eq_true, if_false]
  | @power mark sign text marked signed isDigits =>
      have marks : marksExponent mark = true := by simpa [marksExponent] using marked
      have found := digits_append isDigits.decimal fun byte next => (ends.foreign next).1
      rw [List.cons_append, List.append_assoc, exponent_of_mark marks, splitSign_append signed isDigits, found]
      split
      · rename_i empty
        exact absurd (List.map_eq_nil_iff.mp (Prod.mk.inj empty).1) isDigits.nonempty
      · rename_i same
        obtain ⟨rfl, rfl⟩ := Prod.mk.inj same
        exact ⟨_, rfl⟩

theorem number_of_unsigned {negative : Bool} {found : Numeral}
    (scanned : unsigned atEnd negative bytes = .ok (found, rest)) : ∃ whole fraction exponent,
      Whole whole ∧ Fraction fraction ∧ Exponent exponent ∧ bytes = whole ++ (fraction ++ (exponent ++ rest)) := by
  obtain ⟨whole, decimal, cut, spelled⟩ := exists_digits bytes
  unfold unsigned at scanned
  dsimp only at scanned
  split at scanned
  · cases scanned
  · cases scanned
  · rename_i notEmpty notLeading
    obtain ⟨⟨fractionDigits, afterFraction⟩, fractionFound, scanned⟩ := bind_eq_ok.mp scanned
    obtain ⟨⟨exponentDigits, afterExponent⟩, exponentFound, scanned⟩ := bind_eq_ok.mp scanned
    dsimp only at exponentFound scanned
    split at scanned
    · cases scanned
    · obtain ⟨_, rfl⟩ := Prod.mk.inj (Except.ok.inj scanned)
      obtain ⟨fraction, isFraction, fractionCut⟩ := fraction_of_scanned fractionFound
      obtain ⟨exponent, isExponent, exponentCut⟩ := exponent_of_scanned exponentFound
      refine ⟨whole, fraction, exponent, ⟨⟨?_, decimal⟩, ?_⟩, isFraction, isExponent, ?_⟩
      · rintro rfl
        exact notEmpty spelled
      · intro leading
        cases whole with
        | nil => cases leading
        | cons first others =>
            obtain rfl := Option.some.inj leading
            cases others with
            | nil => rfl
            | cons second others => exact absurd spelled (notLeading _ _)
      · rw [← exponentCut, ← fractionCut]
        exact cut

/-- What follows a whole number or a fraction is no digit. -/
theorem stops_exponent (isExponent : Exponent text) (ends : Ends rest) :
    ∀ byte ∈ (text ++ rest).head?, ¬IsDigit byte ∧ byte ≠ 0x2E := by
  intro byte next
  cases isExponent with
  | none => exact ⟨(ends.foreign next).1, (ends.foreign next).2.1⟩
  | power marked =>
      obtain rfl := Option.some.inj next
      rcases marked with rfl | rfl <;> (unfold IsDigit; decide)

theorem stops_fraction (isFraction : Fraction text) (stops : ∀ byte ∈ rest.head?, ¬IsDigit byte ∧ byte ≠ 0x2E) :
    ∀ byte ∈ (text ++ rest).head?, ¬IsDigit byte := by
  intro byte next
  cases isFraction with
  | none => exact (stops byte next).1
  | point =>
      obtain rfl := Option.some.inj next
      unfold IsDigit
      decide

theorem exists_unsigned (negative : Bool) {whole fraction exponent : Bytes} (isWhole : Whole whole)
    (isFraction : Fraction fraction) (isExponent : Exponent exponent) (ends : Ends rest) :
    ∃ found, unsigned .ended negative (whole ++ (fraction ++ (exponent ++ rest))) = .ok (found, rest) := by
  have stops := stops_exponent isExponent ends
  have spelled := digits_append isWhole.decimal (stops_fraction isFraction stops)
  obtain ⟨fractionDigits, fractionFound⟩ := @exists_fraction .ended _ _ isFraction stops
  obtain ⟨exponentDigits, exponentFound⟩ := @exists_exponent .ended _ _ isExponent ends
  rw [unsigned, spelled]
  dsimp only
  split
  · rename_i empty
    exact absurd (List.map_eq_nil_iff.mp empty) isWhole.nonempty
  · rename_i second others leading
    obtain ⟨first, tail, rfl, zero, more⟩ := List.map_eq_cons_iff.mp leading
    have digit : IsDigit first := isWhole.decimal first List.mem_cons_self
    have same : first = 0x30 := by
      have least : 0x30 ≤ first.toNat := UInt8.le_iff_toNat_le.mp digit.1
      exact UInt8.toNat_inj.mp (Nat.le_antisymm (Nat.le_of_sub_eq_zero zero) least)
    obtain ⟨_, rfl⟩ := List.cons.inj (isWhole.leading (congrArg some same))
    cases more
  · rw [fractionFound, ok_bind]
    dsimp only
    rw [exponentFound, ok_bind]
    simp only [reduceCtorEq, decide_false, Bool.and_false, Bool.false_eq_true, if_false]
    exact ⟨_, rfl⟩

theorem number_of_numeral {found : Numeral} (scanned : numeral atEnd bytes = .ok (found, rest)) :
    ∃ text, NumberText text ∧ bytes = text ++ rest := by
  unfold numeral at scanned
  split at scanned
  · obtain ⟨whole, fraction, exponent, isWhole, isFraction, isExponent, rfl⟩ := number_of_unsigned scanned
    exact ⟨_, .mk (Or.inr rfl) isWhole isFraction isExponent, by simp⟩
  · obtain ⟨whole, fraction, exponent, isWhole, isFraction, isExponent, rfl⟩ := number_of_unsigned scanned
    exact ⟨_, .mk (Or.inl rfl) isWhole isFraction isExponent, by simp⟩

theorem exists_numeral (number : NumberText text) (ends : Ends rest) :
    ∃ found, numeral .ended (text ++ rest) = .ok (found, rest) := by
  obtain ⟨signed, isWhole, isFraction, isExponent⟩ := number
  rename_i sign whole fraction exponent
  simp only [List.append_assoc]
  rcases signed with rfl | rfl
  · obtain ⟨first, others, rfl⟩ := List.exists_cons_of_ne_nil isWhole.nonempty
    have digit : IsDigit first := isWhole.decimal first List.mem_cons_self
    obtain ⟨found, scanned⟩ := exists_unsigned false isWhole isFraction isExponent ends
    refine ⟨found, ?_⟩
    rw [List.nil_append]
    unfold numeral
    split
    · rename_i same
      obtain rfl := (List.cons.inj same).1
      exact absurd digit (by unfold IsDigit; decide)
    · exact scanned
  · exact exists_unsigned true isWhole isFraction isExponent ends

end WebToken.Json.Scan
