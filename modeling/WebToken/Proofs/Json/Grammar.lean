import WebToken.Json.Document

/-!
The grammar of JSON on bytes. A text belongs to a symbol: a value of some shape, or what stands between the
brackets of an array or an object. Bytes above ASCII stand in strings as they are, whether they are UTF-8 or not.
-/

namespace WebToken.Json

/-- The kind of a value, and how many items it has if it is an array. -/
inductive Shape
  | null
  | boolean
  | number
  | string
  | array (size : Nat)
  | object
  deriving DecidableEq, Repr

namespace Grammar

def IsDigit (byte : UInt8) : Prop := 0x30 ≤ byte ∧ byte ≤ 0x39

def IsHexDigit (byte : UInt8) : Prop :=
  IsDigit byte ∨ (0x41 ≤ byte ∧ byte ≤ 0x46) ∨ (0x61 ≤ byte ∧ byte ≤ 0x66)

/-- The letters that a backslash may stand before, but for the one of a code. -/
def escapes : List UInt8 := [0x22, 0x5C, 0x2F, 0x62, 0x66, 0x6E, 0x72, 0x74]

def Blanks (text : Bytes) : Prop := ∀ byte ∈ text, Scan.isBlank byte = true

/-- At least one digit. -/
structure Digits (text : Bytes) : Prop where
  nonempty : text ≠ []
  decimal : ∀ byte ∈ text, IsDigit byte

/-- What stands between the quotes of a string. -/
inductive Chars : Bytes → Prop
  | nil : Chars []
  | plain {byte : UInt8} {text : Bytes} (printable : 0x20 ≤ byte) (notQuote : byte ≠ 0x22) (notBackslash : byte ≠ 0x5C)
      (others : Chars text) : Chars (byte :: text)
  | escape {letter : UInt8} {text : Bytes} (known : letter ∈ escapes) (others : Chars text) :
      Chars (0x5C :: letter :: text)
  | code {a b c d : UInt8} {text : Bytes} (hex : ∀ digit ∈ [a, b, c, d], IsHexDigit digit) (others : Chars text) :
      Chars (0x5C :: 0x75 :: a :: b :: c :: d :: text)

/-- The digits before the point. Only zero itself starts with a zero. -/
structure Whole (text : Bytes) : Prop extends Digits text where
  leading : text.head? = some 0x30 → text = [0x30]

inductive Fraction : Bytes → Prop
  | none : Fraction []
  | point {text : Bytes} (digits : Digits text) : Fraction (0x2E :: text)

inductive Exponent : Bytes → Prop
  | none : Exponent []
  | power {mark : UInt8} {sign text : Bytes} (marked : mark = 0x65 ∨ mark = 0x45)
      (signed : sign = [] ∨ sign = [0x2B] ∨ sign = [0x2D]) (digits : Digits text) : Exponent (mark :: (sign ++ text))

inductive NumberText : Bytes → Prop
  | mk {sign whole fraction exponent : Bytes} (signed : sign = [] ∨ sign = [0x2D]) (isWhole : Whole whole)
      (isFraction : Fraction fraction) (isExponent : Exponent exponent) :
      NumberText (sign ++ (whole ++ (fraction ++ exponent)))

inductive Symbol
  | value (shape : Shape)
  | items (size : Nat)
  | members

/-- The texts of a symbol. -/
inductive Derives : Symbol → Bytes → Prop
  | null : Derives (.value .null) [0x6E, 0x75, 0x6C, 0x6C]
  | yes : Derives (.value .boolean) [0x74, 0x72, 0x75, 0x65]
  | no : Derives (.value .boolean) [0x66, 0x61, 0x6C, 0x73, 0x65]
  | number {text : Bytes} (number : NumberText text) : Derives (.value .number) text
  | string {text : Bytes} (chars : Chars text) : Derives (.value .string) (0x22 :: (text ++ [0x22]))
  | emptyArray {blanks : Bytes} (blank : Blanks blanks) : Derives (.value (.array 0)) (0x5B :: (blanks ++ [0x5D]))
  | array {size : Nat} {text : Bytes} (items : Derives (.items size) text) :
      Derives (.value (.array size)) (0x5B :: (text ++ [0x5D]))
  | emptyObject {blanks : Bytes} (blank : Blanks blanks) : Derives (.value .object) (0x7B :: (blanks ++ [0x7D]))
  | object {text : Bytes} (members : Derives .members text) : Derives (.value .object) (0x7B :: (text ++ [0x7D]))
  | spaced {shape : Shape} {before text after : Bytes} (front : Blanks before) (value : Derives (.value shape) text)
      (back : Blanks after) : Derives (.value shape) (before ++ (text ++ after))
  | lastItem {shape : Shape} {text : Bytes} (item : Derives (.value shape) text) : Derives (.items 1) text
  | nextItem {shape : Shape} {text others : Bytes} {size : Nat} (item : Derives (.value shape) text)
      (rest : Derives (.items size) others) : Derives (.items (size + 1)) (text ++ 0x2C :: others)
  | lastMember {shape : Shape} {name text : Bytes} (named : Derives (.value .string) name)
      (item : Derives (.value shape) text) : Derives .members (name ++ 0x3A :: text)
  | nextMember {shape : Shape} {name text others : Bytes} (named : Derives (.value .string) name)
      (item : Derives (.value shape) text) (rest : Derives .members others) :
      Derives .members (name ++ 0x3A :: (text ++ 0x2C :: others))

end Grammar

/-- Bytes are the text of a value of a shape. -/
def IsText (shape : Shape) (bytes : Bytes) : Prop := Grammar.Derives (.value shape) bytes

end WebToken.Json
