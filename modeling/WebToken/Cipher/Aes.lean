import WebToken.Bytes

/-!
The AES block cipher. A block is four columns of four bytes; a round replaces every byte, rotates
the rows, multiplies every column by a fixed matrix over the field of 256 elements, and adds a
round key. Each step is undone by one of its own.
-/

namespace WebToken.Aes

/-- Four bytes, top to bottom. -/
structure Column where
  (b0 b1 b2 b3 : UInt8)
  deriving DecidableEq, Repr

/-- Four columns, left to right. -/
structure Block where
  (c0 c1 c2 c3 : Column)
  deriving DecidableEq, Repr

def Column.sum (left right : Column) : Column :=
  ⟨left.b0 ^^^ right.b0, left.b1 ^^^ right.b1, left.b2 ^^^ right.b2, left.b3 ^^^ right.b3⟩

def Column.map (f : UInt8 → UInt8) (column : Column) : Column :=
  ⟨f column.b0, f column.b1, f column.b2, f column.b3⟩

def Column.toBytes (column : Column) : Bytes := [column.b0, column.b1, column.b2, column.b3]

/-- The column of the first four bytes; missing bytes are zero. -/
def Column.ofBytes (bytes : Bytes) : Column :=
  ⟨bytes.getD 0 0, bytes.getD 1 0, bytes.getD 2 0, bytes.getD 3 0⟩

def Block.sum (left right : Block) : Block :=
  ⟨left.c0.sum right.c0, left.c1.sum right.c1, left.c2.sum right.c2, left.c3.sum right.c3⟩

def Block.map (f : Column → Column) (block : Block) : Block :=
  ⟨f block.c0, f block.c1, f block.c2, f block.c3⟩

def Block.toBytes (block : Block) : Bytes :=
  block.c0.toBytes ++ block.c1.toBytes ++ block.c2.toBytes ++ block.c3.toBytes

/-- The block of the first sixteen bytes; missing bytes are zero. -/
def Block.ofBytes (bytes : Bytes) : Block :=
  ⟨.ofBytes bytes, .ofBytes (bytes.drop 4), .ofBytes (bytes.drop 8), .ofBytes (bytes.drop 12)⟩

def blockSize : Nat := 16

/-- The byte that replaces a byte: its inverse in the field, then an affine map on its bits. -/
def substitutionTable : Array UInt8 :=
  #[0x63, 0x7C, 0x77, 0x7B, 0xF2, 0x6B, 0x6F, 0xC5, 0x30, 0x01, 0x67, 0x2B, 0xFE, 0xD7, 0xAB, 0x76,
    0xCA, 0x82, 0xC9, 0x7D, 0xFA, 0x59, 0x47, 0xF0, 0xAD, 0xD4, 0xA2, 0xAF, 0x9C, 0xA4, 0x72, 0xC0,
    0xB7, 0xFD, 0x93, 0x26, 0x36, 0x3F, 0xF7, 0xCC, 0x34, 0xA5, 0xE5, 0xF1, 0x71, 0xD8, 0x31, 0x15,
    0x04, 0xC7, 0x23, 0xC3, 0x18, 0x96, 0x05, 0x9A, 0x07, 0x12, 0x80, 0xE2, 0xEB, 0x27, 0xB2, 0x75,
    0x09, 0x83, 0x2C, 0x1A, 0x1B, 0x6E, 0x5A, 0xA0, 0x52, 0x3B, 0xD6, 0xB3, 0x29, 0xE3, 0x2F, 0x84,
    0x53, 0xD1, 0x00, 0xED, 0x20, 0xFC, 0xB1, 0x5B, 0x6A, 0xCB, 0xBE, 0x39, 0x4A, 0x4C, 0x58, 0xCF,
    0xD0, 0xEF, 0xAA, 0xFB, 0x43, 0x4D, 0x33, 0x85, 0x45, 0xF9, 0x02, 0x7F, 0x50, 0x3C, 0x9F, 0xA8,
    0x51, 0xA3, 0x40, 0x8F, 0x92, 0x9D, 0x38, 0xF5, 0xBC, 0xB6, 0xDA, 0x21, 0x10, 0xFF, 0xF3, 0xD2,
    0xCD, 0x0C, 0x13, 0xEC, 0x5F, 0x97, 0x44, 0x17, 0xC4, 0xA7, 0x7E, 0x3D, 0x64, 0x5D, 0x19, 0x73,
    0x60, 0x81, 0x4F, 0xDC, 0x22, 0x2A, 0x90, 0x88, 0x46, 0xEE, 0xB8, 0x14, 0xDE, 0x5E, 0x0B, 0xDB,
    0xE0, 0x32, 0x3A, 0x0A, 0x49, 0x06, 0x24, 0x5C, 0xC2, 0xD3, 0xAC, 0x62, 0x91, 0x95, 0xE4, 0x79,
    0xE7, 0xC8, 0x37, 0x6D, 0x8D, 0xD5, 0x4E, 0xA9, 0x6C, 0x56, 0xF4, 0xEA, 0x65, 0x7A, 0xAE, 0x08,
    0xBA, 0x78, 0x25, 0x2E, 0x1C, 0xA6, 0xB4, 0xC6, 0xE8, 0xDD, 0x74, 0x1F, 0x4B, 0xBD, 0x8B, 0x8A,
    0x70, 0x3E, 0xB5, 0x66, 0x48, 0x03, 0xF6, 0x0E, 0x61, 0x35, 0x57, 0xB9, 0x86, 0xC1, 0x1D, 0x9E,
    0xE1, 0xF8, 0x98, 0x11, 0x69, 0xD9, 0x8E, 0x94, 0x9B, 0x1E, 0x87, 0xE9, 0xCE, 0x55, 0x28, 0xDF,
    0x8C, 0xA1, 0x89, 0x0D, 0xBF, 0xE6, 0x42, 0x68, 0x41, 0x99, 0x2D, 0x0F, 0xB0, 0x54, 0xBB, 0x16]

def inverseTable : Array UInt8 :=
  ((List.range 256).map fun value => UInt8.ofNat (substitutionTable.toList.idxOf (UInt8.ofNat value))).toArray

def substitute (byte : UInt8) : UInt8 := substitutionTable.getD byte.toNat 0

def restore (byte : UInt8) : UInt8 := inverseTable.getD byte.toNat 0

/-- Twice an element of the field. -/
def twice (byte : UInt8) : UInt8 := if byte < 0x80 then byte <<< 1 else (byte <<< 1) ^^^ 0x1B

/-- Rotates the rows to the left, each by one place more than the row above. -/
def shiftRows (block : Block) : Block :=
  let ⟨p, q, r, s⟩ := block
  ⟨⟨p.b0, q.b1, r.b2, s.b3⟩, ⟨q.b0, r.b1, s.b2, p.b3⟩, ⟨r.b0, s.b1, p.b2, q.b3⟩, ⟨s.b0, p.b1, q.b2, r.b3⟩⟩

def unshiftRows (block : Block) : Block :=
  let ⟨p, q, r, s⟩ := block
  ⟨⟨p.b0, s.b1, r.b2, q.b3⟩, ⟨q.b0, p.b1, s.b2, r.b3⟩, ⟨r.b0, q.b1, p.b2, s.b3⟩, ⟨s.b0, r.b1, q.b2, p.b3⟩⟩

/-- Multiplies a column by the circulant matrix with the row 2, 3, 1, 1. -/
def mixColumn (column : Column) : Column :=
  let ⟨a, b, c, d⟩ := column
  ⟨twice a ^^^ (twice b ^^^ b) ^^^ c ^^^ d, a ^^^ twice b ^^^ (twice c ^^^ c) ^^^ d,
    a ^^^ b ^^^ twice c ^^^ (twice d ^^^ d), (twice a ^^^ a) ^^^ b ^^^ c ^^^ twice d⟩

/-- Multiplies a column by the inverse matrix, which has the row 14, 11, 13, 9: it is the product of
the matrix of `mixColumn` and the circulant matrix with the row 5, 0, 4, 0. -/
def unmixColumn (column : Column) : Column :=
  let ⟨a, b, c, d⟩ := column
  let even := twice (twice (a ^^^ c))
  let odd := twice (twice (b ^^^ d))
  mixColumn ⟨a ^^^ even, b ^^^ odd, c ^^^ even, d ^^^ odd⟩

/-- The round keys: one before the first round, one for each full round, one for the last round. -/
structure Schedule where
  first : Block
  middle : List Block
  last : Block

/-- The columns that follow `last` when each is added to the one a key length before it. -/
def extend (last : Column) : List Column → List Column
  | [] => []
  | column :: rest =>
      let next := column.sum last
      next :: extend next rest

/-- The columns of a key length that follow the first four, the last of which is `last`. Only a key of
eight columns has bytes replaced once more, in front of its fifth column. -/
def extendHalf (last : Column) : List Column → List Column
  | [p, q, r, s] => extend (last.map substitute) [p, q, r, s]
  | columns => extend last columns

/-- The next columns of a key schedule, as many as the key has. -/
def nextColumns (constant : UInt8) (columns : List Column) : List Column :=
  match columns, columns.getLast? with
  | first :: rest, some last =>
      let turned := Column.map substitute ⟨last.b1, last.b2, last.b3, last.b0⟩
      let next := (first.sum turned).sum ⟨constant, 0, 0, 0⟩
      let half := next :: extend next (rest.take 3)
      half ++ extendHalf (half.getLastD next) (rest.drop 3)
  | _, _ => []

/-- The columns of a key schedule, `count` key lengths of them. -/
def keyColumns : (count : Nat) → (constant : UInt8) → List Column → List Column
  | 0, _, _ => []
  | count + 1, constant, columns =>
      columns ++ keyColumns count (twice constant) (nextColumns constant columns)

def blocksOfColumns : (count : Nat) → List Column → List Block
  | 0, _ => []
  | count + 1, columns =>
      let column (index : Nat) := columns.getD index ⟨0, 0, 0, 0⟩
      ⟨column 0, column 1, column 2, column 3⟩ :: blocksOfColumns count (columns.drop 4)

inductive KeySize
  | bits128
  | bits192
  | bits256
  deriving DecidableEq, Repr

namespace KeySize

def bytes : KeySize → Nat
  | bits128 => 16
  | bits192 => 24
  | bits256 => 32

/-- The rounds before the last one. -/
def fullRounds : KeySize → Nat
  | bits128 => 9
  | bits192 => 11
  | bits256 => 13

end KeySize

def schedule (size : KeySize) (key : Bytes) : Schedule :=
  let columns := keyColumns 11 1 (Bytes.pieces 4 Column.ofBytes (size.bytes / 4) key)
  let blocks := blocksOfColumns (size.fullRounds + 2) columns
  let zero : Column := ⟨0, 0, 0, 0⟩
  { first := blocks.headD ⟨zero, zero, zero, zero⟩
    middle := (blocks.drop 1).take size.fullRounds
    last := blocks.getLastD ⟨zero, zero, zero, zero⟩ }

def round (block key : Block) : Block :=
  ((shiftRows (block.map (·.map substitute))).map mixColumn).sum key

def unround (key block : Block) : Block :=
  (unshiftRows ((block.sum key).map unmixColumn)).map (·.map restore)

def Schedule.encrypt (keys : Schedule) (block : Block) : Block :=
  let mixed := keys.middle.foldl round (block.sum keys.first)
  (shiftRows (mixed.map (·.map substitute))).sum keys.last

def Schedule.decrypt (keys : Schedule) (block : Block) : Block :=
  let mixed := (unshiftRows (block.sum keys.last)).map (·.map restore)
  (keys.middle.foldr unround mixed).sum keys.first

end WebToken.Aes
