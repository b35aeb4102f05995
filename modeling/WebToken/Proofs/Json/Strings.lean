import WebToken.Checked
import WebToken.Json.Document
import WebToken.Json.Value
import WebToken.Proofs.Text.Utf8

/-!
Strings between quotes. Scanning a quoted text stops behind the closing quote, and the pieces found
read as the text, whatever its characters are.
-/

namespace WebToken.Json

/-- Control characters that have no letter of their own behind a backslash. -/
def Text.isCoded (c : Char) : Bool :=
  c.toNat < 0x20 && !(['\x08', '\x0C', '\n', '\r', '\t'].contains c)

namespace Body

/-- The pieces that a character between quotes is scanned as. -/
def spelling (c : Char) : List Piece :=
  if Text.isCoded c then [.code c.toNat] else (String.utf8EncodeChar c).map .byte

def quoted (text : String) : Body := ⟨text.toList.flatMap spelling, none⟩

theorem readPieces_bytes (bytes : Bytes) (others : List Piece) :
    readPieces none (bytes.map .byte ++ others) = (bytes ++ ·) <$> readPieces none others := by
  induction bytes with
  | nil => cases h : readPieces none others <;> simp [h]
  | cons byte bytes ih =>
      simp only [List.map_cons, List.cons_append, readPieces, ih]
      cases readPieces none others <;> rfl

theorem read_ofText (text : String) : (ofText text).read = .ok text := by
  have pieces : readPieces none ((Bytes.ofText text).map .byte) = .ok (Bytes.ofText text) := by
    have scanned := readPieces_bytes (Bytes.ofText text) []
    rw [List.append_nil] at scanned
    rw [scanned, readPieces]
    exact congrArg Except.ok (List.append_nil _)
  rw [read, ofText, pieces, ok_bind, Utf8.decode?_eq_some_iff.mpr rfl]

theorem readPieces_spelling (c : Char) (others : List Piece) :
    readPieces none (spelling c ++ others) =
      (String.utf8EncodeChar c ++ ·) <$> readPieces none others := by
  unfold spelling
  split
  · rename_i coded
    have small : c.toNat < 0x20 := by
      simp only [Text.isCoded, Bool.and_eq_true, decide_eq_true_eq] at coded
      exact coded.1
    have notTrail : isTrail c.toNat = false := by simp [isTrail]; omega
    have notLead : isLead c.toNat = false := by simp [isLead]; omega
    rw [List.cons_append, List.nil_append, readPieces.eq_def]
    simp only [notTrail, notLead, Bool.false_eq_true, if_false, Char.ofNat_toNat]
  · exact readPieces_bytes _ _

theorem readPieces_quoted (chars : List Char) :
    readPieces none (chars.flatMap spelling) = .ok (Bytes.ofChars chars) := by
  induction chars with
  | nil => rfl
  | cons c chars ih =>
      rw [List.flatMap_cons, readPieces_spelling, ih]
      rfl

theorem read_quoted (text : String) : (quoted text).read = .ok text := by
  have pieces : readPieces none (text.toList.flatMap spelling) = .ok (Bytes.ofText text) :=
    readPieces_quoted text.toList
  rw [read, quoted, pieces, ok_bind, Utf8.decode?_eq_some_iff.mpr rfl]

end Body

namespace Scan

variable {atEnd : Fault} {rest : Bytes}

def pushAll (pieces : List Piece) (scan : Scan Body) : Scan Body :=
  ({ scan.1 with pieces := pieces ++ scan.1.pieces }, scan.2)

theorem body_plain {byte : UInt8} (notControl : 0x20 ≤ byte.toNat) (notQuote : byte.toNat ≠ 0x22)
    (notBackslash : byte.toNat ≠ 0x5C) :
    body atEnd (byte :: rest) = push (.byte byte) (body atEnd rest) := by
  have differs : byte ≠ 0x22 ∧ byte ≠ 0x5C :=
    ⟨fun same => notQuote (same ▸ rfl), fun same => notBackslash (same ▸ rfl)⟩
  have ordinary : ¬byte < 0x20 := fun control => by
    have := UInt8.lt_iff_toNat_lt.mp control
    exact absurd notControl (by simpa using this)
  rw [body.eq_6 atEnd byte rest differs.1 (fun same => absurd same differs.2)
    (fun _ _ _ _ _ same => absurd same differs.2) (fun _ _ same => absurd same differs.2), if_neg ordinary]

theorem body_bytes {bytes : Bytes}
    (plain : ∀ byte ∈ bytes, 0x20 ≤ byte.toNat ∧ byte.toNat ≠ 0x22 ∧ byte.toNat ≠ 0x5C) :
    body atEnd (bytes ++ rest) = pushAll (bytes.map .byte) (body atEnd rest) := by
  induction bytes with
  | nil => rfl
  | cons byte bytes ih =>
      obtain ⟨⟨notControl, notQuote, notBackslash⟩, others⟩ := List.forall_mem_cons.mp plain
      rw [List.cons_append, body_plain notControl notQuote notBackslash, ih others]
      rfl

theorem plain_of_mem_encodeChar {c : Char} (notControl : 0x20 ≤ c.toNat) (notQuote : c.toNat ≠ 0x22)
    (notBackslash : c.toNat ≠ 0x5C) :
    ∀ byte ∈ String.utf8EncodeChar c, 0x20 ≤ byte.toNat ∧ byte.toNat ≠ 0x22 ∧ byte.toNat ≠ 0x5C := by
  intro byte present
  by_cases ascii : c.toNat < 128
  · have spelled : (UInt8.ofNat c.toNat).toNat = c.toNat := UInt8.toNat_ofNat_of_lt' (Nat.lt_trans ascii (by decide))
    rw [Utf8.encodeChar_ascii ascii, List.mem_singleton] at present
    rw [present, spelled]
    exact ⟨notControl, notQuote, notBackslash⟩
  · have high := Utf8.high_of_mem_encodeChar (Nat.le_of_not_lt ascii) present
    omega

theorem codeOf?_hexDigit {number : Nat} (small : number < 0x20) :
    codeOf? 0x30 0x30 (UInt8.ofNat (Text.hexDigit (number / 16)).toNat)
      (UInt8.ofNat (Text.hexDigit (number % 16)).toNat) = some number := by
  revert number
  decide

theorem hexDigit_ascii {value : Nat} (small : value < 16) : (Text.hexDigit value).toNat < 128 := by
  revert value
  decide

theorem body_escape (c : Char) :
    body atEnd (Bytes.ofChars (Text.escape c) ++ rest) = pushAll (Body.spelling c) (body atEnd rest) := by
  fun_cases Text.escape c with
  | case1 same | case2 _ same | case3 _ _ same | case4 _ _ _ same | case5 _ _ _ _ same
  | case6 _ _ _ _ _ same | case7 _ _ _ _ _ _ same =>
      subst same
      rfl
  | case8 notQuote notBackslash backspace formFeed newline carriageReturn tab control =>
      have coded : Text.isCoded c = true := by simp [Text.isCoded, *]
      have number := codeOf?_hexDigit control
      rw [Body.spelling, if_pos coded]
      simp only [Bytes.ofChars_cons, Bytes.ofChars_nil,
        Utf8.encodeChar_ascii (hexDigit_ascii (by omega : c.toNat / 16 < 16)),
        Utf8.encodeChar_ascii (hexDigit_ascii (by omega : c.toNat % 16 < 16))]
      exact (body.eq_4 atEnd 0x30 0x30 _ _ rest).trans (by rw [number]; rfl)
  | case9 notQuote notBackslash _ _ _ _ _ printable =>
      have uncoded : Text.isCoded c = false := by simp [Text.isCoded, printable]
      have differs (other : Char) (different : c ≠ other) : c.toNat ≠ other.toNat :=
        fun same => different (Char.toNat_inj.mp same)
      have plain := plain_of_mem_encodeChar (Nat.le_of_not_lt printable) (differs '"' notQuote)
        (differs '\\' notBackslash)
      rw [Body.spelling, uncoded, Bytes.ofChars_cons, Bytes.ofChars_nil, List.append_nil]
      exact body_bytes plain

theorem body_escapes (chars : List Char) :
    body atEnd (Bytes.ofChars (chars.flatMap Text.escape) ++ rest) =
      pushAll (chars.flatMap Body.spelling) (body atEnd rest) := by
  induction chars with
  | nil => rfl
  | cons c chars ih =>
      rw [List.flatMap_cons, Bytes.ofChars_append, List.append_assoc, body_escape, ih]
      simp only [pushAll, List.flatMap_cons, List.append_assoc]

/-- Scanning a quoted text behind its opening quote stops behind the closing one. -/
theorem body_quote (text : String) :
    body atEnd (Bytes.ofChars (Text.quote text).tail ++ rest) = (Body.quoted text, some rest) := by
  have closing : Bytes.ofChars ['"'] ++ rest = 0x22 :: rest := rfl
  rw [Text.quote, List.cons_append, List.tail_cons, Bytes.ofChars_append, List.append_assoc, body_escapes,
    closing, body.eq_2, pushAll, Body.quoted, List.append_nil]

end Scan

end WebToken.Json
