import WebToken.Json.Decimal
import WebToken.Table

/-!
JSON values and their text. An object has the entries of a table, in the order of their names;
a number is a whole number of 64 bits, with or without a sign, or a floating point number.

The text has no white space. `quote`, `list` and `members` also write the documents that are not
plain values: headers and keys, whose members stand in an order of their own.
-/

namespace WebToken.Json

inductive Number
  | whole (number : Int)
  | float (double : Double)
  deriving DecidableEq, Repr

inductive Value
  | null
  | bool (flag : Bool)
  | number (number : Number)
  | string (text : String)
  | array (items : List Value)
  | object (members : List (String × Value))
  deriving Repr

namespace Text

def hexDigit (value : Nat) : Char := Nat.digitChar value

def escape (c : Char) : List Char :=
  if c = '"' then ['\\', '"']
  else if c = '\\' then ['\\', '\\']
  else if c = '\x08' then ['\\', 'b']
  else if c = '\x0C' then ['\\', 'f']
  else if c = '\n' then ['\\', 'n']
  else if c = '\r' then ['\\', 'r']
  else if c = '\t' then ['\\', 't']
  else if c.toNat < 0x20 then ['\\', 'u', '0', '0', hexDigit (c.toNat / 16), hexDigit (c.toNat % 16)]
  else [c]

def quote (text : String) : List Char := '"' :: text.toList.flatMap escape ++ ['"']

def separated : List (List Char) → List Char
  | [] => []
  | [last] => last
  | first :: rest => first ++ ',' :: separated rest

def list (items : List (List Char)) : List Char := '[' :: separated items ++ [']']

def members (entries : List (String × List Char)) : List Char :=
  '{' :: separated (entries.map fun entry => quote entry.1 ++ ':' :: entry.2) ++ ['}']

def whole (number : Int) : List Char :=
  if number < 0 then '-' :: Nat.toDigits 10 number.natAbs else Nat.toDigits 10 number.natAbs

end Text

def Number.write : Number → List Char
  | whole number => Text.whole number
  | float double => Decimal.write double

namespace Value

mutual

def write : Value → List Char
  | null => ['n', 'u', 'l', 'l']
  | bool true => ['t', 'r', 'u', 'e']
  | bool false => ['f', 'a', 'l', 's', 'e']
  | number found => found.write
  | string text => Text.quote text
  | array items => Text.list (writeItems items)
  | object members => Text.members (writeMembers members)

def writeItems : List Value → List (List Char)
  | [] => []
  | item :: rest => write item :: writeItems rest

def writeMembers : List (String × Value) → List (String × List Char)
  | [] => []
  | (name, value) :: rest => (name, write value) :: writeMembers rest

end

def toText (value : Value) : String := String.ofList value.write

def string? : Value → Option String
  | string text => some text
  | _ => none

end Value

end WebToken.Json
