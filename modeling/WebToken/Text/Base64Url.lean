import WebToken.Bytes

/-!
Base64url without padding: three bytes are four digits of the URL-safe alphabet, one byte is two
digits and two bytes are three. Reading is strict: the bits that a shorter last group leaves over
must be zero, so every byte string has exactly one written form.
-/

namespace WebToken.Base64Url

def digit (value : Nat) : Char :=
  if value < 26 then Char.ofNat (65 + value)
  else if value < 52 then Char.ofNat (97 + (value - 26))
  else if value < 62 then Char.ofNat (48 + (value - 52))
  else if value = 62 then '-'
  else '_'

def value? (c : Char) : Option Nat :=
  let code := c.toNat
  if 65 ≤ code && code ≤ 90 then some (code - 65)
  else if 97 ≤ code && code ≤ 122 then some (code - 97 + 26)
  else if 48 ≤ code && code ≤ 57 then some (code - 48 + 52)
  else if c = '-' then some 62
  else if c = '_' then some 63
  else none

/-- The bytes regrouped into numbers of six bits, the last one filled up with zero bits. -/
def sextets : Bytes → List Nat
  | [] => []
  | [a] => [a.toNat / 4, a.toNat % 4 * 16]
  | [a, b] => [a.toNat / 4, a.toNat % 4 * 16 + b.toNat / 16, b.toNat % 16 * 4]
  | a :: b :: c :: rest =>
      a.toNat / 4 :: (a.toNat % 4 * 16 + b.toNat / 16) :: (b.toNat % 16 * 4 + c.toNat / 64) ::
        (c.toNat % 64) :: sextets rest

/-- The bytes that numbers of six bits regroup into, if the bits left over are zero. -/
def ofSextets? : List Nat → Option Bytes
  | [] => some []
  | [_] => none
  | [p, q] => if q % 16 = 0 then some [UInt8.ofNat (p * 4 + q / 16)] else none
  | [p, q, r] =>
      if r % 4 = 0 then
        some [UInt8.ofNat (p * 4 + q / 16), UInt8.ofNat (q % 16 * 16 + r / 4)]
      else none
  | p :: q :: r :: s :: rest =>
      (ofSextets? rest).map fun bytes =>
        UInt8.ofNat (p * 4 + q / 16) :: UInt8.ofNat (q % 16 * 16 + r / 4) ::
          UInt8.ofNat (r % 4 * 64 + s) :: bytes

def encode (bytes : Bytes) : String := String.ofList ((sextets bytes).map digit)

/-- The bytes that a base64url text stands for, none for any other text. -/
def decode? (text : String) : Option Bytes := text.toList.mapM value? >>= ofSextets?

theorem value?_digit {value : Nat} (bound : value < 64) : value? (digit value) = some value := by
  revert value
  decide

theorem digit_of_value? {c : Char} {value : Nat} (read : value? c = some value) :
    value < 64 ∧ digit value = c := by
  have back : Char.ofNat c.toNat = c := Char.ofNat_toNat c
  simp only [value?, Bool.and_eq_true, decide_eq_true_eq] at read
  split at read
  case isTrue upper =>
      obtain rfl := Option.some.inj read
      refine ⟨by omega, ?_⟩
      rw [digit, if_pos (by omega), Nat.add_sub_cancel' upper.1, back]
  case isFalse =>
  split at read
  case isTrue lower =>
      obtain rfl := Option.some.inj read
      refine ⟨by omega, ?_⟩
      rw [digit, if_neg (by omega), if_pos (by omega), Nat.add_sub_cancel, Nat.add_sub_cancel' lower.1, back]
  case isFalse =>
  split at read
  case isTrue figure =>
      obtain rfl := Option.some.inj read
      refine ⟨by omega, ?_⟩
      rw [digit, if_neg (by omega), if_neg (by omega), if_pos (by omega), Nat.add_sub_cancel,
        Nat.add_sub_cancel' figure.1, back]
  case isFalse =>
  split at read
  case isTrue hyphen =>
      obtain rfl := Option.some.inj read
      exact ⟨by decide, hyphen.symm⟩
  case isFalse =>
  split at read
  case isTrue underscore =>
      obtain rfl := Option.some.inj read
      exact ⟨by decide, underscore.symm⟩
  case isFalse => cases read

theorem sextets_lt {bytes : Bytes} : ∀ value ∈ sextets bytes, value < 64 := by
  fun_induction sextets bytes with
  | case1 => simp
  | case2 a =>
      have := a.toNat_lt
      simp only [List.mem_cons, List.not_mem_nil, or_false, forall_eq_or_imp, forall_eq]
      omega
  | case3 a b =>
      have := a.toNat_lt
      have := b.toNat_lt
      simp only [List.mem_cons, List.not_mem_nil, or_false, forall_eq_or_imp, forall_eq]
      omega
  | case4 a b c rest ih =>
      have := a.toNat_lt
      have := b.toNat_lt
      have := c.toNat_lt
      simp only [List.mem_cons, forall_eq_or_imp]
      exact ⟨by omega, by omega, by omega, by omega, ih⟩

theorem length_sextets (bytes : Bytes) : (sextets bytes).length = (4 * bytes.length + 2) / 3 := by
  fun_induction sextets bytes with
  | case1 => rfl
  | case2 a => simp
  | case3 a b => simp
  | case4 a b c rest ih =>
      simp only [List.length_cons, ih]
      omega

theorem ofSextets?_sextets (bytes : Bytes) : ofSextets? (sextets bytes) = some bytes := by
  fun_induction sextets bytes with
  | case1 => rfl
  | case2 a =>
      have bound := a.toNat_lt
      have whole : a.toNat / 4 * 4 + a.toNat % 4 * 16 / 16 = a.toNat := by omega
      rw [ofSextets?, if_pos (by omega), whole, UInt8.ofNat_toNat]
  | case3 a b =>
      have := a.toNat_lt
      have := b.toNat_lt
      have first : a.toNat / 4 * 4 + (a.toNat % 4 * 16 + b.toNat / 16) / 16 = a.toNat := by omega
      have second : (a.toNat % 4 * 16 + b.toNat / 16) % 16 * 16 + b.toNat % 16 * 4 / 4 = b.toNat := by omega
      rw [ofSextets?, if_pos (by omega), first, second, UInt8.ofNat_toNat, UInt8.ofNat_toNat]
  | case4 a b c rest ih =>
      have := a.toNat_lt
      have := b.toNat_lt
      have := c.toNat_lt
      have first : a.toNat / 4 * 4 + (a.toNat % 4 * 16 + b.toNat / 16) / 16 = a.toNat := by omega
      have second : (a.toNat % 4 * 16 + b.toNat / 16) % 16 * 16 + (b.toNat % 16 * 4 + c.toNat / 64) / 4 =
          b.toNat := by omega
      have third : (b.toNat % 16 * 4 + c.toNat / 64) % 4 * 64 + c.toNat % 64 = c.toNat := by omega
      rw [ofSextets?, ih, first, second, third]
      simp only [Option.map_some, UInt8.ofNat_toNat]

theorem sextets_ofSextets? {values : List Nat} {bytes : Bytes} (bound : ∀ value ∈ values, value < 64)
    (grouped : ofSextets? values = some bytes) : sextets bytes = values := by
  fun_induction ofSextets? values generalizing bytes with
  | case1 =>
      cases grouped
      rfl
  | case2 => cases grouped
  | case3 p q unused =>
      obtain rfl := Option.some.inj grouped
      simp only [List.forall_mem_cons] at bound
      simp only [sextets, UInt8.toNat_ofNat']
      congr 2 <;> omega
  | case4 => cases grouped
  | case5 p q r unused =>
      obtain rfl := Option.some.inj grouped
      simp only [List.forall_mem_cons] at bound
      simp only [sextets, UInt8.toNat_ofNat']
      congr 3 <;> omega
  | case6 => cases grouped
  | case7 p q r s rest ih =>
      simp only [List.forall_mem_cons] at bound
      obtain ⟨bytes, found, rfl⟩ := Option.map_eq_some_iff.mp grouped
      have tail := ih bound.2.2.2.2 found
      simp only [sextets, UInt8.toNat_ofNat', tail]
      congr 4 <;> omega

theorem mapM_value?_digit {values : List Nat} (bound : ∀ value ∈ values, value < 64) :
    (values.map digit).mapM value? = some values := by
  induction values with
  | nil => rfl
  | cons first rest ih =>
      obtain ⟨firstBound, restBound⟩ := List.forall_mem_cons.mp bound
      rw [List.map_cons, List.mapM_cons, value?_digit firstBound, ih restBound]
      rfl

theorem map_digit_of_mapM {chars : List Char} {values : List Nat} (read : chars.mapM value? = some values) :
    (∀ value ∈ values, value < 64) ∧ values.map digit = chars := by
  induction chars generalizing values with
  | nil =>
      obtain rfl := Option.some.inj read
      exact ⟨nofun, rfl⟩
  | cons c chars ih =>
      rw [List.mapM_cons] at read
      obtain ⟨value, first, read⟩ := Option.bind_eq_some_iff.mp read
      obtain ⟨others, rest, read⟩ := Option.bind_eq_some_iff.mp read
      obtain rfl := Option.some.inj read
      obtain ⟨bound, written⟩ := digit_of_value? first
      obtain ⟨bounds, restWritten⟩ := ih rest
      exact ⟨List.forall_mem_cons.mpr ⟨bound, bounds⟩, by rw [List.map_cons, written, restWritten]⟩

theorem length_encode (bytes : Bytes) : (encode bytes).length = (4 * bytes.length + 2) / 3 := by
  rw [encode, String.length_ofList, List.length_map, length_sextets]

theorem decode?_encode (bytes : Bytes) : decode? (encode bytes) = some bytes := by
  rw [decode?, encode, String.toList_ofList, mapM_value?_digit sextets_lt]
  exact ofSextets?_sextets bytes

/-- Reading is strict: what is read as bytes is the text that the bytes are written as. -/
theorem encode_of_decode? {text : String} {bytes : Bytes} (decoded : decode? text = some bytes) :
    encode bytes = text := by
  obtain ⟨values, read, grouped⟩ := Option.bind_eq_some_iff.mp decoded
  obtain ⟨bound, written⟩ := map_digit_of_mapM read
  rw [encode, sextets_ofSextets? bound grouped, written, String.ofList_toList]

theorem decode?_eq_some_iff {text : String} {bytes : Bytes} :
    decode? text = some bytes ↔ text = encode bytes := by
  constructor
  · exact fun decoded => (encode_of_decode? decoded).symm
  · rintro rfl
    exact decode?_encode bytes

theorem decode?_eq_none_iff {text : String} : decode? text = none ↔ ∀ bytes, text ≠ encode bytes := by
  simp only [Option.eq_none_iff_forall_ne_some, ne_eq, decode?_eq_some_iff]

theorem encode_injective {one other : Bytes} (same : encode one = encode other) : one = other :=
  Option.some.inj <| by rw [← decode?_encode one, same, decode?_encode other]

end WebToken.Base64Url
