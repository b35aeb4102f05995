import WebToken.Json.Node

/-!
From bytes to trees. A document is the tree of its first value and what follows the value. Bytes may
come from a source that fails before the text ends; then every look past the last byte is a fault of
the source and not of the text.
-/

namespace WebToken.Json

/-- A tree and the bytes behind it, or none if the tree shows where reading stops. -/
abbrev Scan (α : Type) := α × Option Bytes

namespace Scan

def isBlank (byte : UInt8) : Bool := byte == 0x20 || byte == 0x0A || byte == 0x0D || byte == 0x09

def afterBlanks (bytes : Bytes) : Bytes := bytes.dropWhile isBlank

def unescape? (letter : UInt8) : Option UInt8 :=
  if letter == 0x22 || letter == 0x5C || letter == 0x2F then some letter
  else if letter == 0x62 then some 0x08
  else if letter == 0x66 then some 0x0C
  else if letter == 0x6E then some 0x0A
  else if letter == 0x72 then some 0x0D
  else if letter == 0x74 then some 0x09
  else none

def hexValue? (digit : UInt8) : Option Nat :=
  if 0x30 ≤ digit && digit ≤ 0x39 then some (digit.toNat - 0x30)
  else if 0x41 ≤ digit && digit ≤ 0x46 then some (digit.toNat - 0x41 + 10)
  else if 0x61 ≤ digit && digit ≤ 0x66 then some (digit.toNat - 0x61 + 10)
  else none

def codeOf? (a b c d : UInt8) : Option Nat := do
  let a ← hexValue? a
  let b ← hexValue? b
  let c ← hexValue? c
  let d ← hexValue? d
  return ((a * 16 + b) * 16 + c) * 16 + d

def push (piece : Piece) (scan : Scan Body) : Scan Body :=
  ({ scan.1 with pieces := piece :: scan.1.pieces }, scan.2)

/-- A string behind its opening quote. `atEnd` is the fault of looking past the last byte. -/
def body (atEnd : Fault) : Bytes → Scan Body
  | [] => (⟨[], some atEnd⟩, none)
  | 0x22 :: rest => (⟨[], none⟩, some rest)
  | 0x5C :: [] => (⟨[], some atEnd⟩, none)
  | 0x5C :: 0x75 :: a :: b :: c :: d :: rest =>
      match codeOf? a b c d with
      | some number => push (.code number) (body atEnd rest)
      | none => (⟨[], some .malformed⟩, none)
  | 0x5C :: letter :: rest =>
      if letter = 0x75 then (⟨[], some atEnd⟩, none)
      else
        match unescape? letter with
        | some byte => push (.byte byte) (body atEnd rest)
        | none => (⟨[], some .malformed⟩, none)
  | byte :: rest =>
      if byte < 0x20 then (⟨[], some .malformed⟩, none) else push (.byte byte) (body atEnd rest)

def digits (bytes : Bytes) : List Nat × Bytes :=
  let isDigit (byte : UInt8) : Bool := 0x30 ≤ byte && byte ≤ 0x39
  ((bytes.takeWhile isDigit).map fun byte => byte.toNat - 0x30, bytes.dropWhile isDigit)

def needsDigit (atEnd : Fault) : Bytes → NumberFlaw
  | [] => ⟨atEnd, if atEnd = .ended then .malformed else atEnd⟩
  | _ :: _ => ⟨.malformed, .malformed⟩

def fraction (atEnd : Fault) : Bytes → Except NumberFlaw (List Nat × Bytes)
  | 0x2E :: rest =>
      match digits rest with
      | ([], after) => .error (needsDigit atEnd after)
      | found => .ok found
  | bytes => .ok ([], bytes)

def marksExponent (byte : UInt8) : Bool := byte == 0x65 || byte == 0x45

def exponent (atEnd : Fault) : Bytes → Except NumberFlaw (Option (Bool × List Nat) × Bytes)
  | [] => .ok (none, [])
  | byte :: rest =>
      if marksExponent byte then
        let (below, rest) := match rest with
          | 0x2D :: rest => (true, rest)
          | 0x2B :: rest => (false, rest)
          | _ => (false, rest)
        match digits rest with
        | ([], after) => .error (needsDigit atEnd after)
        | (found, after) => .ok (some (below, found), after)
      else .ok (none, byte :: rest)

/-- A numeral behind its sign. One that touches the end of a failing source is not complete. -/
def unsigned (atEnd : Fault) (negative : Bool) (bytes : Bytes) :
    Except NumberFlaw (Numeral × Bytes) := do
  let (whole, afterWhole) := digits bytes
  match whole with
  | [] => throw (needsDigit atEnd afterWhole)
  | 0 :: _ :: _ => throw ⟨.malformed, .malformed⟩
  | _ =>
      let (fraction, afterFraction) ← fraction atEnd afterWhole
      let (exponent, rest) ← exponent atEnd afterFraction
      if rest.isEmpty && atEnd = .unreadable then throw ⟨atEnd, atEnd⟩
      return (⟨negative, whole, fraction, exponent⟩, rest)

def numeral (atEnd : Fault) : Bytes → Except NumberFlaw (Numeral × Bytes)
  | 0x2D :: rest => unsigned atEnd true rest
  | bytes => unsigned atEnd false bytes

def word (atEnd : Fault) (name : Word) : (letters : Bytes) → Bytes → Scan Node
  | [], rest => (.word name none, some rest)
  | _ :: _, [] => (.word name (some atEnd), none)
  | letter :: letters, byte :: rest =>
      if letter = byte then word atEnd name letters rest else (.word name (some .malformed), none)

def leaf (atEnd : Fault) : Bytes → Scan Node
  | [] => (.missing atEnd, none)
  | byte :: rest =>
      if byte = 0x6E then word atEnd .null [0x75, 0x6C, 0x6C] rest
      else if byte = 0x74 then word atEnd .yes [0x72, 0x75, 0x65] rest
      else if byte = 0x66 then word atEnd .no [0x61, 0x6C, 0x73, 0x65] rest
      else if byte = 0x2D || (0x30 ≤ byte && byte ≤ 0x39) then
        match numeral atEnd (byte :: rest) with
        | .ok (numeral, rest) => (.number (.ok numeral), some rest)
        | .error flaw => (.number (.error flaw), none)
      else (.missing .malformed, none)

/-- The ending of an object where the next name belongs and no string stands. -/
def noName (atEnd : Fault) : Bytes → Ending
  | [] => .dangling atEnd atEnd
  | byte :: rest =>
      if byte = 0x5B || byte = 0x7B then .dangling .malformed .mismatched
      else .dangling .malformed (leaf atEnd (byte :: rest)).1.refusal

mutual

/-- A value. Every step but the first of an array or object uses up a byte, so twice the number of
bytes and two more are steps enough. -/
def node (atEnd : Fault) : (steps : Nat) → Bytes → Scan Node
  | 0, _ => (.missing .malformed, none)
  | steps + 1, bytes =>
      match afterBlanks bytes with
      | 0x22 :: rest =>
          let (found, rest) := body atEnd rest
          (.string found, rest)
      | 0x5B :: rest =>
          match afterBlanks rest with
          | 0x5D :: rest => (.array [] .closed, some rest)
          | [] => (.array [] (.cut atEnd), none)
          | rest =>
              let ((found, ending), rest) := items atEnd steps rest
              (.array found ending, rest)
      | 0x7B :: rest =>
          match afterBlanks rest with
          | 0x7D :: rest => (.object [] .closed, some rest)
          | rest =>
              let ((found, ending), rest) := members atEnd steps rest
              (.object found ending, rest)
      | bytes => leaf atEnd bytes

def items (atEnd : Fault) : (steps : Nat) → Bytes → Scan (List Node × Ending)
  | 0, _ => (([], .cut .malformed), none)
  | steps + 1, bytes =>
      match node atEnd steps bytes with
      | (item, none) => (([item], .cut .malformed), none)
      | (item, some rest) =>
          match afterBlanks rest with
          | 0x2C :: rest =>
              let ((found, ending), rest) := items atEnd steps rest
              ((item :: found, ending), rest)
          | 0x5D :: rest => (([item], .closed), some rest)
          | [] => (([item], .cut atEnd), none)
          | _ => (([item], .cut .malformed), none)

def members (atEnd : Fault) : (steps : Nat) → Bytes → Scan (List (Body × Node) × Ending)
  | 0, _ => (([], .cut .malformed), none)
  | steps + 1, bytes =>
      match afterBlanks bytes with
      | 0x22 :: rest =>
          match body atEnd rest with
          | (key, none) => (([(key, .missing .malformed)], .cut .malformed), none)
          | (key, some rest) =>
              match afterBlanks rest with
              | 0x3A :: rest =>
                  match node atEnd steps rest with
                  | (item, none) => (([(key, item)], .cut .malformed), none)
                  | (item, some rest) =>
                      match afterBlanks rest with
                      | 0x2C :: rest =>
                          let ((found, ending), rest) := members atEnd steps rest
                          (((key, item) :: found, ending), rest)
                      | 0x7D :: rest => (([(key, item)], .closed), some rest)
                      | [] => (([(key, item)], .cut atEnd), none)
                      | _ => (([(key, item)], .cut .malformed), none)
              | [] => (([(key, .missing atEnd)], .cut .malformed), none)
              | _ => (([(key, .missing .malformed)], .cut .malformed), none)
      | rest => (([], noName atEnd rest), none)

end

end Scan

/-- A document: the tree of its value, and the fault of what follows the value. -/
structure Document where
  root : Node
  trailing : Option Fault

namespace Document

/-- What follows a value: only white space may. -/
def trailingOf (atEnd : Fault) (rest : Bytes) : Option Fault :=
  match Scan.afterBlanks rest with
  | [] => if atEnd = .unreadable then some .unreadable else none
  | _ => some .malformed

/-- The document of a text whose last byte is followed by its end, or by a failure of its source. -/
def ofBytes (bytes : Bytes) (atEnd : Fault) : Document :=
  match Scan.node atEnd (2 * bytes.length + 2) bytes with
  | (root, some rest) => ⟨root, trailingOf atEnd rest⟩
  | (root, none) => ⟨root, some .malformed⟩

end Document

/-- Why a document is refused: a fault of its text, or what it says. -/
inductive Refusal (ε : Type)
  | text (fault : Fault)
  | content (cause : ε)
  deriving DecidableEq, Repr

/-- Reads a document whose last byte is followed by `atEnd`. What the content is refused for comes
before what trails it. -/
def readFrom {ε α : Type} (atEnd : Fault) (read : Node → Except (Refusal ε) α) (bytes : Bytes) :
    Except (Refusal ε) α := do
  let document := Document.ofBytes bytes atEnd
  let content ← read document.root
  match document.trailing with
  | none => .ok content
  | some fault => .error (.text fault)

def read {α : Type} (reader : Node → Except Fault α) (bytes : Bytes) : Except Fault α := do
  let document := Document.ofBytes bytes .ended
  let content ← reader document.root
  match document.trailing with
  | none => .ok content
  | some fault => .error fault

def Value.ofBytes (bytes : Bytes) : Except Fault Value := read (Node.value Node.maxDepth) bytes

end WebToken.Json
