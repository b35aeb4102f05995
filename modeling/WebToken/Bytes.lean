/-!
Byte strings, the numbers they spell most significant byte first, and their bitwise sum.

Everything that travels in a token is a byte string: headers, payloads, keys, signatures and
ciphertexts. The number that a string of fixed length spells gives the string back, which is what
the fixed-size encodings of keys and signatures rest on.
-/

namespace WebToken

/-- A string of bytes, first byte first. -/
abbrev Bytes := List UInt8

namespace Bytes

/-- The number that the bytes spell, most significant byte first. -/
def toNat (bytes : Bytes) : Nat :=
  bytes.foldl (fun number byte => number * 256 + byte.toNat) 0

/-- The lowest `length` base-256 digits of a number, most significant first. -/
def ofNat : (length number : Nat) → Bytes
  | 0, _ => []
  | length + 1, number => ofNat length (number / 256) ++ [UInt8.ofNat number]

def digitCount (number : Nat) : Nat := number.log2 / 8 + 1

/-- A number in as few bytes as hold it. Zero takes one byte. -/
def minimal (number : Nat) : Bytes := ofNat (digitCount number) number

/-- The bitwise sum, as long as the shorter of the two strings. -/
def xor (left right : Bytes) : Bytes := List.zipWith (· ^^^ ·) left right

/-- The pieces of `size` bytes from the front, `count` of them, each read in the same way. -/
def pieces {α : Type} (size : Nat) (read : Bytes → α) : (count : Nat) → Bytes → List α
  | 0, _ => []
  | count + 1, bytes => read bytes :: pieces size read count (bytes.drop size)

def ofChars (chars : List Char) : Bytes := chars.flatMap String.utf8EncodeChar

def ofText (text : String) : Bytes := ofChars text.toList

@[simp] theorem length_ofNat (length number : Nat) : (ofNat length number).length = length := by
  induction length generalizing number with
  | zero => rfl
  | succ length ih => simp [ofNat, ih]

theorem toNat_append_singleton (bytes : Bytes) (byte : UInt8) :
    toNat (bytes ++ [byte]) = toNat bytes * 256 + byte.toNat := by
  simp [toNat]

theorem toNat_ofNat (length number : Nat) :
    toNat (ofNat length number) = number % Nat.pow 256 length := by
  induction length generalizing number with
  | zero => simp [ofNat, toNat, Nat.mod_one]
  | succ length ih =>
      rw [ofNat, toNat_append_singleton, ih, Nat.pow_eq, Nat.pow_eq, Nat.pow_succ', Nat.mod_mul,
        Nat.add_comm, Nat.mul_comm]
      simp

/-- A number that fits into a length is told by its digits. -/
theorem ofNat_inj (length : Nat) {number other : Nat} (fits : number < Nat.pow 256 length)
    (otherFits : other < Nat.pow 256 length) (same : ofNat length number = ofNat length other) : number = other := by
  have values := congrArg toNat same
  rwa [toNat_ofNat, toNat_ofNat, Nat.mod_eq_of_lt fits, Nat.mod_eq_of_lt otherFits] at values

theorem toNat_append (left right : Bytes) :
    toNat (left ++ right) = toNat left * Nat.pow 256 right.length + toNat right := by
  induction right generalizing left with
  | nil => simp [toNat]
  | cons byte right ih =>
      have split := ih [byte]
      have place : Nat.pow 256 (right.length + 1) = 256 * Nat.pow 256 right.length := Nat.pow_succ'
      rw [List.singleton_append] at split
      rw [List.append_cons, ih, toNat_append_singleton, split, List.length_cons, place, Nat.add_mul,
        Nat.mul_assoc, Nat.add_assoc]
      simp [toNat]

theorem toNat_cons (byte : UInt8) (bytes : Bytes) :
    toNat (byte :: bytes) = byte.toNat * Nat.pow 256 bytes.length + toNat bytes := by
  have split := toNat_append [byte] bytes
  simpa [toNat] using split

theorem toNat_lt (bytes : Bytes) : toNat bytes < Nat.pow 256 bytes.length := by
  induction bytes with
  | nil => decide
  | cons byte bytes ih =>
      have digit : byte.toNat + 1 ≤ 256 := byte.toNat_lt
      have place : Nat.pow 256 (bytes.length + 1) = 256 * Nat.pow 256 bytes.length := Nat.pow_succ'
      rw [toNat_cons, List.length_cons, place]
      calc byte.toNat * Nat.pow 256 bytes.length + toNat bytes
        _ < (byte.toNat + 1) * Nat.pow 256 bytes.length := by rw [Nat.succ_mul]; omega
        _ ≤ 256 * Nat.pow 256 bytes.length := Nat.mul_le_mul_right _ digit

theorem toNat_inj {left right : Bytes} (sameLength : left.length = right.length)
    (sameNumber : toNat left = toNat right) : left = right := by
  induction left generalizing right with
  | nil => exact (List.eq_nil_of_length_eq_zero sameLength.symm).symm
  | cons byte left ih =>
      cases right with
      | nil => cases sameLength
      | cons other right =>
          have length := Nat.succ.inj sameLength
          have leftLow := toNat_lt left
          have rightLow := toNat_lt right
          rw [toNat_cons, toNat_cons, length] at sameNumber
          rw [length] at leftLow
          have first := congrArg (· / Nat.pow 256 right.length) sameNumber
          have rest := congrArg (· % Nat.pow 256 right.length) sameNumber
          have positive : 0 < Nat.pow 256 right.length := Nat.pow_pos (by decide)
          simp only [Nat.mul_comm _ (Nat.pow 256 right.length), Nat.mul_add_div positive, Nat.div_eq_of_lt leftLow,
            Nat.div_eq_of_lt rightLow, Nat.mul_add_mod, Nat.mod_eq_of_lt leftLow, Nat.mod_eq_of_lt rightLow,
            Nat.add_zero] at first rest
          rw [UInt8.toNat_inj.mp first, ih length rest]

theorem ofNat_toNat (bytes : Bytes) : ofNat bytes.length (toNat bytes) = bytes := by
  apply toNat_inj (length_ofNat _ _)
  rw [toNat_ofNat, Nat.mod_eq_of_lt (toNat_lt bytes)]

@[simp] theorem length_xor (left right : Bytes) :
    (xor left right).length = min left.length right.length := List.length_zipWith

section Pieces

variable {α : Type} {size : Nat} {read : Bytes → α} {write : α → Bytes}

@[simp] theorem length_pieces (count : Nat) (bytes : Bytes) : (pieces size read count bytes).length = count := by
  induction count generalizing bytes with
  | zero => rfl
  | succ count ih => rw [pieces, List.length_cons, ih]

theorem length_flatMap_write (sized : ∀ item, (write item).length = size) (items : List α) :
    (items.flatMap write).length = size * items.length := by
  induction items with
  | nil => rfl
  | cons item items ih =>
      rw [List.flatMap_cons, List.length_append, ih, sized, List.length_cons, Nat.mul_succ, Nat.add_comm]

theorem pieces_flatMap_write (sized : ∀ item, (write item).length = size)
    (inverse : ∀ item rest, read (write item ++ rest) = item) (items : List α) (rest : Bytes) :
    pieces size read items.length (items.flatMap write ++ rest) = items := by
  induction items with
  | nil => rfl
  | cons item items ih =>
      rw [List.length_cons, pieces, List.flatMap_cons, List.append_assoc, inverse, ← sized item,
        List.drop_left, sized item, ih]

theorem flatMap_write_pieces (inverse : ∀ bytes, size ≤ bytes.length → write (read bytes) = bytes.take size)
    {count : Nat} {bytes : Bytes} (whole : bytes.length = size * count) :
    (pieces size read count bytes).flatMap write = bytes := by
  induction count generalizing bytes with
  | zero => exact (List.eq_nil_of_length_eq_zero whole).symm
  | succ count ih =>
      rw [Nat.mul_succ] at whole
      have rest : (bytes.drop size).length = size * count := by rw [List.length_drop, whole, Nat.add_sub_cancel]
      rw [pieces, List.flatMap_cons, ih rest, inverse bytes (by omega), List.take_append_drop]

end Pieces

@[simp] theorem ofChars_nil : ofChars [] = [] := rfl

theorem ofChars_cons (c : Char) (chars : List Char) :
    ofChars (c :: chars) = String.utf8EncodeChar c ++ ofChars chars := List.flatMap_cons

theorem ofChars_append (left right : List Char) :
    ofChars (left ++ right) = ofChars left ++ ofChars right := List.flatMap_append

theorem ofText_ofList (chars : List Char) : ofText (String.ofList chars) = ofChars chars := by
  rw [ofText, String.toList_ofList]

end Bytes

end WebToken
