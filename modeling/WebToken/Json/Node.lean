import WebToken.Json.Value
import WebToken.Text.Utf8

/-!
JSON text as a tree that keeps what a reader may care about: members given twice, the spelling of
numbers, the escapes in strings, and the place where the text stops being JSON. A text is read from
left to right and the first fault counts, so a tree ends where reading cannot go on; what stands
there tells every reader the same fault.

`value` reads a tree as a value and `skip` passes over one that nobody asked for, which looks at
the syntax alone. The other readers ask for a certain kind of value.
-/

namespace WebToken.Json

/-- Why a text is refused: it is not JSON, it ends too early, it is JSON of another shape than
asked for, or its source failed. -/
inductive Fault
  | malformed
  | ended
  | mismatched
  | unreadable
  deriving DecidableEq, Repr

/-- One piece of a string: a byte as it stands or behind a backslash, or a number of sixteen bits
given by four digits. -/
inductive Piece
  | byte (byte : UInt8)
  | code (number : Nat)
  deriving DecidableEq, Repr

/-- The pieces of a string, and the fault in place of the closing quote if it is not there. -/
structure Body where
  pieces : List Piece
  flaw : Option Fault
  deriving DecidableEq, Repr

namespace Body

def isLead (number : Nat) : Bool := 0xD800 ≤ number && number ≤ 0xDBFF

def isTrail (number : Nat) : Bool := 0xDC00 ≤ number && number ≤ 0xDFFF

def readPieces (flaw : Option Fault) : List Piece → Except Fault Bytes
  | [] =>
      match flaw with
      | none => .ok []
      | some fault => .error fault
  | .byte byte :: rest => (byte :: ·) <$> readPieces flaw rest
  | .code lead :: rest =>
      if isTrail lead then .error .malformed
      else if isLead lead then
        match rest with
        | .code trail :: rest =>
            if isTrail trail then
              let number := 0x10000 + (lead - 0xD800) * 0x400 + (trail - 0xDC00)
              (String.utf8EncodeChar (Char.ofNat number) ++ ·) <$> readPieces flaw rest
            else .error .malformed
        | .byte _ :: _ => .error .malformed
        | [] => .error (flaw.getD .malformed)
      else (String.utf8EncodeChar (Char.ofNat lead) ++ ·) <$> readPieces flaw rest

def read (body : Body) : Except Fault String := do
  let bytes ← readPieces body.flaw body.pieces
  match Utf8.decode? bytes with
  | some text => .ok text
  | none => .error .malformed

def ofText (text : String) : Body := ⟨(Bytes.ofText text).map .byte, none⟩

def skip (body : Body) : Except Fault Unit :=
  match body.flaw with
  | none => .ok ()
  | some fault => .error fault

end Body

inductive Word
  | null
  | yes
  | no
  deriving DecidableEq, Repr

/-- The fault of a number that does not go on as it must, for one who reads it and for one who
passes over it. -/
structure NumberFlaw where
  reading : Fault
  skipping : Fault
  deriving DecidableEq, Repr

/-- The spelling of a number: digits before the point, digits behind it, and an exponent with its
sign. -/
structure Numeral where
  negative : Bool
  whole : List Nat
  fraction : List Nat
  exponent : Option (Bool × List Nat)
  deriving DecidableEq, Repr

namespace Numeral

def maxSignificand : Nat := Nat.pow 2 64 - 1

def maxExponent : Nat := Nat.pow 2 31 - 1

/-- Appends digits to a significand as long as it stays within 64 bits; also the number of digits
left over from the first that does not fit. -/
def takeWhole (significand : Nat) : List Nat → Nat × Nat
  | [] => (significand, 0)
  | digit :: rest =>
      let next := significand * 10 + digit
      if next > maxSignificand then (significand, rest.length + 1) else takeWhole next rest

/-- Appends digits to a significand as long as it stays within 64 bits; also their number. -/
def takeFraction (significand : Nat) : List Nat → Nat × Nat
  | [] => (significand, 0)
  | digit :: rest =>
      let next := significand * 10 + digit
      if next > maxSignificand then (significand, 0)
      else
        let (last, count) := takeFraction next rest
        (last, count + 1)

/-- The number that digits spell, none if it is too large to be counted. -/
def exponentOf? (digits : List Nat) : Option Nat :=
  digits.foldlM (fun number digit =>
    let next := number * 10 + digit
    if next > maxExponent then none else some next) 0

/-- The magnitude of a significand with an exponent, none if it is out of range. -/
def magnitude? (significand : Nat) (exponent : Int) : Option Double :=
  (Double.ofNat significand).scale? exponent

/-- The number that is spelled, none if it is out of range. Whole numbers that fit 64 bits stay
whole; minus zero does not. -/
def value? (numeral : Numeral) : Option Number :=
  let (significand, dropped) := takeWhole 0 numeral.whole
  let signed (double : Double) : Number := .float { double with negative := numeral.negative }
  match numeral.fraction, numeral.exponent, dropped with
  | [], none, 0 =>
      if !numeral.negative then some (.whole significand)
      else if 1 ≤ significand && significand ≤ Nat.pow 2 63 then some (.whole (-significand))
      else (magnitude? significand 0).map signed
  | fraction, exponent, dropped =>
      let (significand, count) := takeFraction significand fraction
      let start := Int.ofNat dropped - Int.ofNat count
      match exponent with
      | none => (magnitude? significand start).map signed
      | some (below, digits) =>
          match exponentOf? digits with
          | some size =>
              (magnitude? significand (if below then start - size else start + size)).map signed
          | none => if significand ≠ 0 && !below then none else some (signed .zero)

end Numeral

/-- How an array or an object ends: closed, cut where a comma or the end belongs, or left where a
member belongs. In the last case there is a second fault, for one who reads a string there. -/
inductive Ending
  | closed
  | cut (fault : Fault)
  | dangling (fault asString : Fault)
  deriving DecidableEq, Repr

def Ending.check : Ending → Except Fault Unit
  | closed => .ok ()
  | cut fault => .error fault
  | dangling fault _ => .error fault

inductive Node
  | missing (fault : Fault)
  | word (word : Word) (flaw : Option Fault)
  | number (spelling : Except NumberFlaw Numeral)
  | string (body : Body)
  | array (items : List Node) (ending : Ending)
  | object (members : List (Body × Node)) (ending : Ending)

namespace Node

def readNumber : Except NumberFlaw Numeral → Except Fault Number
  | .error flaw => .error flaw.reading
  | .ok numeral =>
      match numeral.value? with
      | some found => .ok found
      | none => .error .malformed

/-- The fault of a tree that is not of the kind asked for. Arrays and objects are told by their
first character, all others are read first. -/
def refusal : Node → Fault
  | missing fault => fault
  | word _ flaw => flaw.getD .mismatched
  | number spelling =>
      match readNumber spelling with
      | .ok _ => .mismatched
      | .error fault => fault
  | string body =>
      match body.read with
      | .ok _ => .mismatched
      | .error fault => fault
  | array _ _ => .mismatched
  | object _ _ => .mismatched

mutual

/-- Reads a value in which arrays and objects are at most `depth` deep. The last of the members
with one name stays. -/
def value (depth : Nat) : Node → Except Fault Value
  | missing fault => .error fault
  | word _ (some fault) => .error fault
  | word .null none => .ok .null
  | word .yes none => .ok (.bool true)
  | word .no none => .ok (.bool false)
  | number spelling => .number <$> readNumber spelling
  | string body => .string <$> body.read
  | array items ending =>
      match depth with
      | 0 => .error .malformed
      | depth + 1 => do
          let values ← values depth items
          ending.check
          return .array values
  | object members ending =>
      match depth with
      | 0 => .error .malformed
      | depth + 1 => do
          let entries ← memberValues depth members
          ending.check
          return .object (Table.ofEntries entries).entries

def values (depth : Nat) : List Node → Except Fault (List Value)
  | [] => .ok []
  | item :: rest => do
      let first ← value depth item
      let others ← values depth rest
      return first :: others

/-- Reads the members of an object in their order. -/
def memberValues (depth : Nat) : List (Body × Node) → Except Fault (List (String × Value))
  | [] => .ok []
  | (key, item) :: rest => do
      let name ← key.read
      let first ← value depth item
      let others ← memberValues depth rest
      return (name, first) :: others

end

mutual

def skip : Node → Except Fault Unit
  | missing fault => .error fault
  | word _ (some fault) => .error fault
  | word _ none => .ok ()
  | number (.error flaw) => .error flaw.skipping
  | number (.ok _) => .ok ()
  | string body => body.skip
  | array items ending => do
      skipItems items
      ending.check
  | object members ending => do
      skipMembers members
      ending.check

def skipItems : List Node → Except Fault Unit
  | [] => .ok ()
  | item :: rest => do
      skip item
      skipItems rest

def skipMembers : List (Body × Node) → Except Fault Unit
  | [] => .ok ()
  | (key, item) :: rest => do
      key.skip
      skip item
      skipMembers rest

end

/-- The deepest nesting of a value. -/
def maxDepth : Nat := 127

def text : Node → Except Fault String
  | string body => body.read
  | node => .error node.refusal

def wholeBetween (low high : Int) : Node → Except Fault Int
  | number spelling => do
      match ← readNumber spelling with
      | .whole found => if low ≤ found ∧ found ≤ high then .ok found else .error .mismatched
      | .float _ => .error .mismatched
  | node => .error node.refusal

def flag : Node → Except Fault Bool
  | word .yes none => .ok true
  | word .no none => .ok false
  | node => .error node.refusal

def null : Node → Except Fault Unit
  | word .null none => .ok ()
  | node => .error node.refusal

def optional {α : Type} (read : Node → Except Fault α) : Node → Except Fault (Option α)
  | word .null none => .ok none
  | node => some <$> read node

def list {α : Type} (read : Node → Except Fault α) : Node → Except Fault (List α)
  | array items ending => do
      let values ← items.mapM read
      ending.check
      return values
  | node => .error node.refusal

def table : Node → Except Fault (Table Value)
  | object members ending => do
      let entries ← memberValues (maxDepth - 1) members
      ending.check
      return Table.ofEntries entries
  | node => .error node.refusal

end Node

end WebToken.Json
