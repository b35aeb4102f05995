import WebToken.Proofs.Text.Utf8

/-!
The order of texts. Texts compare by their characters, and their bytes in UTF-8 compare in the same way: of two
characters the smaller one has the smaller bytes, whatever follows them.
-/

namespace WebToken.Utf8

theorem cons_lt_of_lead {first second : Nat} (high : second < 256) (less : first < second) (rest after : Bytes) :
    UInt8.ofNat first :: rest < UInt8.ofNat second :: after := by
  refine List.cons_lt_cons_iff.mpr (Or.inl (UInt8.lt_iff_toNat_lt.mpr ?_))
  rw [UInt8.toNat_ofNat_of_lt' (Nat.lt_trans less high), UInt8.toNat_ofNat_of_lt' high]
  exact less

/-- Bytes that compare as the numbers that they spell: those of the smaller number are smaller, whatever
follows. -/
structure Ordered (number bound : Nat) (one other : Bytes) : Prop where
  less : number < bound → ∀ rest after, one ++ rest < other ++ after
  same : number = bound → one = other

namespace Ordered

variable {number bound high limit first second : Nat} {one other : Bytes}

theorem lead (small : second < 256) (less : number < bound → first < second)
    (same : number = bound → first = second) : Ordered number bound [UInt8.ofNat first] [UInt8.ofNat second] where
  less below rest after := cons_lt_of_lead small (less below) rest after
  same equal := by rw [same equal]

/-- A byte more spells six bits more. -/
theorem continued (front : Ordered high limit one other) (cut : number / 64 = high) (boundCut : bound / 64 = limit) :
    Ordered number bound (one ++ [UInt8.ofNat (number % 64 + 128)]) (other ++ [UInt8.ofNat (bound % 64 + 128)]) where
  less below rest after := by
    rw [List.append_assoc, List.append_assoc]
    by_cases earlier : high < limit
    · exact front.less earlier _ _
    · rw [front.same (by omega)]
      exact List.append_left_lt (cons_lt_of_lead (by omega) (by omega) rest after)
  same equal := by rw [front.same (by omega), equal]

end Ordered

theorem encodeChar_append_lt {c d : Char} (below : c < d) (rest after : Bytes) :
    String.utf8EncodeChar c ++ rest < String.utf8EncodeChar d ++ after := by
  have below : c.val.toNat < d.val.toNat := below
  have valid : d.val.toNat < 0xD800 ∨ 0xDFFF < d.val.toNat ∧ d.val.toNat < 0x110000 := d.valid
  -- The number of bytes can be told from the first one, and more bytes have a larger first byte.
  fun_cases String.utf8EncodeChar c
  case case1 number small =>
      fun_cases String.utf8EncodeChar d
      case case1 bound _ => exact cons_lt_of_lead (by omega) below rest after
      all_goals exact cons_lt_of_lead (by omega) (by omega) _ _
  case case2 number above small =>
      fun_cases String.utf8EncodeChar d
      case case1 => omega
      case case2 bound _ _ =>
          have lead : Ordered (number / 64) (bound / 64) [UInt8.ofNat (number / 64 % 32 + 192)]
            [UInt8.ofNat (bound / 64 % 32 + 192)] := .lead (by omega) (by omega) (by omega)
          exact (lead.continued rfl rfl).less below rest after
      all_goals exact cons_lt_of_lead (by omega) (by omega) _ _
  case case3 number _ above small =>
      fun_cases String.utf8EncodeChar d
      case case1 => omega
      case case2 => omega
      case case3 bound _ _ _ =>
          have lead : Ordered (number / 4096) (bound / 4096) [UInt8.ofNat (number / 4096 % 16 + 224)]
            [UInt8.ofNat (bound / 4096 % 16 + 224)] := .lead (by omega) (by omega) (by omega)
          have second : Ordered (number / 64) (bound / 64) _ _ := lead.continued (by omega) (by omega)
          exact (second.continued rfl rfl).less below rest after
      case case4 => exact cons_lt_of_lead (by omega) (by omega) _ _
  case case4 number _ _ above =>
      fun_cases String.utf8EncodeChar d
      case case4 bound _ _ _ =>
          have lead : Ordered (number / 262144) (bound / 262144) [UInt8.ofNat (number / 262144 % 8 + 240)]
            [UInt8.ofNat (bound / 262144 % 8 + 240)] := .lead (by omega) (by omega) (by omega)
          have second : Ordered (number / 4096) (bound / 4096) _ _ := lead.continued (by omega) (by omega)
          have third : Ordered (number / 64) (bound / 64) _ _ := second.continued (by omega) (by omega)
          exact (third.continued rfl rfl).less below rest after
      all_goals omega

theorem ofChars_lt {one other : List Char} (below : one < other) : Bytes.ofChars one < Bytes.ofChars other := by
  induction below with
  | @nil d others =>
      rw [Bytes.ofChars_cons]
      fun_cases String.utf8EncodeChar d <;> exact List.nil_lt_cons _ _
  | @rel c text d others less =>
      rw [Bytes.ofChars_cons, Bytes.ofChars_cons]
      exact encodeChar_append_lt less _ _
  | @cons c text others _ ih =>
      rw [Bytes.ofChars_cons, Bytes.ofChars_cons]
      exact List.append_left_lt ih

/-- Texts are in the order of their bytes. -/
theorem ofText_lt_iff {one other : String} : Bytes.ofText one < Bytes.ofText other ↔ one < other := by
  constructor
  · intro below
    by_cases same : one = other
    · exact absurd (same ▸ below) (List.lt_irrefl _)
    · refine String.not_le.mp fun atMost => ?_
      have above : other < one := String.not_le.mp fun least => same (String.le_antisymm least atMost)
      exact List.lt_irrefl _ (List.lt_trans below (ofChars_lt above))
  · exact ofChars_lt

end WebToken.Utf8
