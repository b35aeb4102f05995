import WebToken.Text.Utf8

/-!
Reading UTF-8 undoes writing it: bytes are read as a text exactly if they are the bytes of the text.
-/

namespace WebToken.Utf8

variable {index : Nat} {lead second third fourth : UInt8} {rest : Bytes}

theorem isContinuation_iff {byte : UInt8} :
    isContinuation byte = true ↔ 128 ≤ byte.toNat ∧ byte.toNat ≤ 191 := by
  simp [isContinuation, UInt8.le_iff_toNat_le]

/-- The bounds of a second byte, as they depend on the lead byte. -/
theorem isSecond_iff :
    isSecond lead second = true ↔
      (128 ≤ second.toNat ∧ second.toNat ≤ 191) ∧ (lead.toNat = 224 → 160 ≤ second.toNat) ∧
        (lead.toNat = 240 → 144 ≤ second.toNat) ∧ (lead.toNat = 237 → second.toNat ≤ 159) ∧
        (lead.toNat = 244 → second.toNat ≤ 143) := by
  have numeral (number : UInt8) : lead = number ↔ lead.toNat = number.toNat := UInt8.toNat_inj.symm
  simp only [isSecond, UInt8.le_iff_toNat_le, numeral, Bool.and_eq_true, decide_eq_true_eq,
    apply_ite UInt8.toNat, UInt8.reduceToNat]
  split <;> split <;> (try split) <;> (try split) <;> omega

theorem decodeFrom_one (low : lead.toNat < 128) :
    decodeFrom index (lead :: rest) = (Char.ofNat lead.toNat :: ·) <$> decodeFrom (index + 1) rest := by
  rw [decodeFrom.eq_def]
  exact if_pos (UInt8.lt_iff_toNat_lt.mpr low)

theorem decodeFrom_two (low : 194 ≤ lead.toNat) (high : lead.toNat < 224)
    (continued : isContinuation second = true) :
    decodeFrom index (lead :: second :: rest) =
      (Char.ofNat (lead.toNat % 32 * 64 + payload second) :: ·) <$> decodeFrom (index + 2) rest := by
  rw [decodeFrom.eq_def]
  simp only [UInt8.lt_iff_toNat_lt, continued]
  rw [if_neg (by simp; omega), if_neg (by simp; omega), if_pos (by simpa using high)]
  rfl

theorem decodeFrom_three (low : 224 ≤ lead.toNat) (high : lead.toNat < 240)
    (fits : isSecond lead second = true) (continued : isContinuation third = true) :
    decodeFrom index (lead :: second :: third :: rest) =
      (Char.ofNat ((lead.toNat % 16 * 64 + payload second) * 64 + payload third) :: ·) <$>
        decodeFrom (index + 3) rest := by
  rw [decodeFrom.eq_def]
  simp only [UInt8.lt_iff_toNat_lt, continued, fits]
  rw [if_neg (by simp; omega), if_neg (by simp; omega), if_neg (by simp; omega), if_pos (by simpa using high)]
  rfl

theorem decodeFrom_four (low : 240 ≤ lead.toNat) (high : lead.toNat < 245)
    (fits : isSecond lead second = true) (continued : isContinuation third = true)
    (ended : isContinuation fourth = true) :
    decodeFrom index (lead :: second :: third :: fourth :: rest) =
      (Char.ofNat (((lead.toNat % 8 * 64 + payload second) * 64 + payload third) * 64 +
        payload fourth) :: ·) <$> decodeFrom (index + 4) rest := by
  rw [decodeFrom.eq_def]
  simp only [UInt8.lt_iff_toNat_lt, continued, fits, ended]
  rw [if_neg (by simp; omega), if_neg (by simp; omega), if_neg (by simp; omega),
    if_neg (by simp; omega), if_pos (by simpa using high)]
  rfl

theorem encodeChar_ascii {c : Char} (ascii : c.toNat < 128) :
    String.utf8EncodeChar c = [UInt8.ofNat c.toNat] := by
  have small : c.val.toNat ≤ 127 := Nat.le_of_lt_succ ascii
  rw [String.utf8EncodeChar, if_pos small]
  rfl

theorem high_of_mem_encodeChar {c : Char} (beyond : 128 ≤ c.toNat) {byte : UInt8}
    (present : byte ∈ String.utf8EncodeChar c) : 128 ≤ byte.toNat := by
  have large : ¬c.val.toNat ≤ 127 := Nat.not_le_of_gt beyond
  rw [String.utf8EncodeChar, if_neg large] at present
  split at present
  · simp only [List.mem_cons, List.not_mem_nil, or_false] at present
    rcases present with rfl | rfl <;> rw [UInt8.toNat_ofNat'] <;> omega
  · split at present <;> simp only [List.mem_cons, List.not_mem_nil, or_false] at present
    · rcases present with rfl | rfl | rfl <;> rw [UInt8.toNat_ofNat'] <;> omega
    · rcases present with rfl | rfl | rfl | rfl <;> rw [UInt8.toNat_ofNat'] <;> omega

theorem decodeFrom_encodeChar (c : Char) :
    decodeFrom index (String.utf8EncodeChar c ++ rest) =
      (c :: ·) <$> decodeFrom (index + (String.utf8EncodeChar c).length) rest := by
  have valid : c.val.toNat < 0xD800 ∨ 0xDFFF < c.val.toNat ∧ c.val.toNat < 0x110000 := c.valid
  have whole : Char.ofNat c.val.toNat = c := Char.ofNat_toNat c
  have spelled (number : Nat) (bound : number < 256) : (UInt8.ofNat number).toNat = number :=
    UInt8.toNat_ofNat_of_lt' bound
  have continued (number : Nat) : isContinuation (UInt8.ofNat (number % 64 + 128)) = true := by
    rw [isContinuation_iff, spelled] <;> omega
  have bits (number : Nat) : payload (UInt8.ofNat (number % 64 + 128)) = number % 64 := by
    rw [payload, spelled] <;> omega
  fun_cases String.utf8EncodeChar c
  case case1 number small =>
      have lead : (UInt8.ofNat number).toNat = number := spelled number (by omega)
      rw [List.cons_append, decodeFrom_one (by omega), lead, whole]
      rfl
  case case2 number above small =>
      have lead := spelled (number / 64 % 32 + 192) (by omega)
      have sum : (number / 64 % 32 + 192) % 32 * 64 + number % 64 = number := by omega
      rw [List.cons_append, List.cons_append,
        decodeFrom_two (by omega) (by omega) (continued number), lead, bits, sum, whole]
      rfl
  case case3 number _ above small =>
      have lead := spelled (number / 4096 % 16 + 224) (by omega)
      have second := spelled (number / 64 % 64 + 128) (by omega)
      have sum : ((number / 4096 % 16 + 224) % 16 * 64 + number / 64 % 64) * 64 + number % 64 = number := by
        omega
      have fits : isSecond (UInt8.ofNat (number / 4096 % 16 + 224)) (UInt8.ofNat (number / 64 % 64 + 128)) = true := by
        rw [isSecond_iff, lead, second]
        omega
      rw [List.cons_append, List.cons_append, List.cons_append,
        decodeFrom_three (by omega) (by omega) fits (continued number), lead, bits, bits, sum, whole]
      rfl
  case case4 number _ _ above =>
      have lead := spelled (number / 262144 % 8 + 240) (by omega)
      have second := spelled (number / 4096 % 64 + 128) (by omega)
      have sum : (((number / 262144 % 8 + 240) % 8 * 64 + number / 4096 % 64) * 64 + number / 64 % 64) * 64 +
          number % 64 = number := by omega
      have fits : isSecond (UInt8.ofNat (number / 262144 % 8 + 240))
          (UInt8.ofNat (number / 4096 % 64 + 128)) = true := by
        rw [isSecond_iff, lead, second]
        omega
      rw [List.cons_append, List.cons_append, List.cons_append, List.cons_append,
        decodeFrom_four (by omega) (by omega) fits (continued (number / 64)) (continued number), lead, bits, bits,
        bits, sum, whole]
      rfl

theorem decodeFrom_ofChars (text : List Char) :
    decodeFrom index (Bytes.ofChars text) = .ok text := by
  induction text generalizing index with
  | nil => rfl
  | cons c text ih =>
      rw [Bytes.ofChars_cons, decodeFrom_encodeChar, ih]
      rfl

/-- Reading the bytes of a text gives the text. -/
theorem decode_ofText (text : String) : decode (Bytes.ofText text) = .ok text := by
  rw [decode, Bytes.ofText, decodeFrom_ofChars]
  exact congrArg Except.ok String.ofList_toList

theorem encodeChar_ofNat {number : Nat} (valid : number.isValidChar) :
    String.utf8EncodeChar (Char.ofNat number) =
      if number ≤ 0x7F then [UInt8.ofNat number]
      else if number ≤ 0x7FF then
        [UInt8.ofNat (number / 64 % 32 + 192), UInt8.ofNat (number % 64 + 128)]
      else if number ≤ 0xFFFF then
        [UInt8.ofNat (number / 4096 % 16 + 224), UInt8.ofNat (number / 64 % 64 + 128),
          UInt8.ofNat (number % 64 + 128)]
      else
        [UInt8.ofNat (number / 262144 % 8 + 240), UInt8.ofNat (number / 4096 % 64 + 128),
          UInt8.ofNat (number / 64 % 64 + 128), UInt8.ofNat (number % 64 + 128)] := by
  have same : (Char.ofNat number).val.toNat = number := by
    rw [Char.ofNat, dif_pos valid]
    rfl
  rw [String.utf8EncodeChar, same]

theorem cons_of_map_ok {found : Except Flaw (List Char)} {c : Char} {text : List Char}
    (read : (c :: ·) <$> found = .ok text) : ∃ others, found = .ok others ∧ text = c :: others := by
  cases found with
  | error flaw => cases read
  | ok others =>
      cases read
      exact ⟨others, rfl, rfl⟩

theorem ofChars_of_decodeFrom {bytes : Bytes} {text : List Char} (read : decodeFrom index bytes = .ok text) :
    Bytes.ofChars text = bytes := by
  have byte (number : Nat) (byte : UInt8) (same : number = byte.toNat) : UInt8.ofNat number = byte := by
    rw [same, UInt8.ofNat_toNat]
  fun_induction decodeFrom index bytes generalizing text with
  | case1 =>
      cases read
      rfl
  | case2 index lead rest low ih =>
      obtain ⟨others, found, rfl⟩ := cons_of_map_ok read
      have bound : lead.toNat < 128 := UInt8.lt_iff_toNat_lt.mp low
      rw [Bytes.ofChars_cons, ih found, encodeChar_ofNat (Or.inl (by omega)), if_pos (by omega), UInt8.ofNat_toNat]
      rfl
  | case5 index lead notOne notShort low second rest continued ih =>
      obtain ⟨others, found, rfl⟩ := cons_of_map_ok read
      rw [isContinuation_iff] at continued
      simp only [UInt8.lt_iff_toNat_lt, UInt8.reduceToNat] at notOne notShort low
      rw [Bytes.ofChars_cons, ih found, payload, encodeChar_ofNat (Or.inl (by omega)), if_neg (by omega),
        if_pos (by omega), byte _ lead (by omega), byte _ second (by omega)]
      rfl
  | case9 index lead notOne notShort notTwo low second fits third rest continued ih =>
      obtain ⟨others, found, rfl⟩ := cons_of_map_ok read
      rw [isContinuation_iff] at continued
      rw [isSecond_iff] at fits
      simp only [UInt8.lt_iff_toNat_lt, UInt8.reduceToNat] at notOne notShort notTwo low
      simp only [payload]
      have valid : ((lead.toNat % 16 * 64 + second.toNat % 64) * 64 + third.toNat % 64).isValidChar := by
        simp only [Nat.isValidChar]
        omega
      rw [Bytes.ofChars_cons, ih found, encodeChar_ofNat valid]
      rw [if_neg (by omega), if_neg (by omega), if_pos (by omega), byte _ lead (by omega),
        byte _ second (by omega), byte _ third (by omega)]
      rfl
  | case15 index lead notOne notShort notTwo notThree low second fits third continued fourth rest ended ih =>
      obtain ⟨others, found, rfl⟩ := cons_of_map_ok read
      rw [isContinuation_iff] at continued ended
      rw [isSecond_iff] at fits
      simp only [UInt8.lt_iff_toNat_lt, UInt8.reduceToNat] at notOne notShort notTwo notThree low
      simp only [payload]
      have valid : (((lead.toNat % 8 * 64 + second.toNat % 64) * 64 + third.toNat % 64) * 64 +
          fourth.toNat % 64).isValidChar := by
        simp only [Nat.isValidChar]
        omega
      rw [Bytes.ofChars_cons, ih found, encodeChar_ofNat valid]
      rw [if_neg (by omega), if_neg (by omega), if_neg (by omega), byte _ lead (by omega),
        byte _ second (by omega), byte _ third (by omega), byte _ fourth (by omega)]
      rfl
  | _ => cases read

/-- Bytes are the text that they are read as. -/
theorem ofText_of_decode {bytes : Bytes} {text : String} (read : decode bytes = .ok text) :
    Bytes.ofText text = bytes := by
  cases found : decodeFrom 0 bytes with
  | error flaw =>
      rw [decode, found] at read
      cases read
  | ok characters =>
      rw [decode, found] at read
      cases read
      rw [Bytes.ofText, String.toList_ofList, ofChars_of_decodeFrom found]

theorem decode?_eq_some_iff {bytes : Bytes} {text : String} :
    decode? bytes = some text ↔ bytes = Bytes.ofText text := by
  constructor
  · intro read
    cases found : decode bytes with
    | error flaw =>
        rw [decode?, found] at read
        cases read
    | ok other =>
        rw [decode?, found] at read
        cases read
        exact (ofText_of_decode found).symm
  · intro same
    subst same
    rw [decode?, decode_ofText]
    rfl

theorem ofText_injective {one other : String} (same : Bytes.ofText one = Bytes.ofText other) : one = other := by
  have read := decode_ofText one
  rw [same, decode_ofText] at read
  exact (Except.ok.inj read).symm

end WebToken.Utf8
