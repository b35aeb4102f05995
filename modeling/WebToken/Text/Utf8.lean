import WebToken.Bytes

/-!
Reading UTF-8. A text is written by `Bytes.ofText`; here the bytes are read back, and the first
sequence that spells no character is reported with its place.
-/

namespace WebToken.Utf8

/-- Where a byte string stops being UTF-8: the offset of the offending sequence and the number of
its bytes that can be told to be wrong, or none when the string ends inside the sequence. -/
structure Flaw where
  index : Nat
  length : Option Nat
  deriving DecidableEq, Repr

def Flaw.message (flaw : Flaw) : String :=
  match flaw.length with
  | some length => s!"invalid utf-8 sequence of {length} bytes from index {flaw.index}"
  | none => s!"incomplete utf-8 byte sequence from index {flaw.index}"

/-- The bytes 80 to BF continue a sequence. -/
def isContinuation (byte : UInt8) : Bool := 0x80 ≤ byte && byte ≤ 0xBF

/-- The second bytes that can follow a lead byte of a sequence of three or four: shorter spellings,
surrogates and numbers above 10FFFF are left out. -/
def isSecond (lead second : UInt8) : Bool :=
  let low : UInt8 := if lead = 0xE0 then 0xA0 else if lead = 0xF0 then 0x90 else 0x80
  let high : UInt8 := if lead = 0xED then 0x9F else if lead = 0xF4 then 0x8F else 0xBF
  low ≤ second && second ≤ high

def payload (byte : UInt8) : Nat := byte.toNat % 64

/-- Reads the characters, `index` being the offset of the first byte given. -/
def decodeFrom (index : Nat) : Bytes → Except Flaw (List Char)
  | [] => .ok []
  | lead :: rest =>
      if lead < 0x80 then
        (Char.ofNat lead.toNat :: ·) <$> decodeFrom (index + 1) rest
      else if lead < 0xC2 then
        .error ⟨index, some 1⟩
      else if lead < 0xE0 then
        match rest with
        | [] => .error ⟨index, none⟩
        | second :: rest =>
            if isContinuation second then
              (Char.ofNat (lead.toNat % 32 * 64 + payload second) :: ·) <$> decodeFrom (index + 2) rest
            else .error ⟨index, some 1⟩
      else if lead < 0xF0 then
        match rest with
        | [] => .error ⟨index, none⟩
        | second :: rest =>
            if isSecond lead second then
              match rest with
              | [] => .error ⟨index, none⟩
              | third :: rest =>
                  if isContinuation third then
                    (Char.ofNat ((lead.toNat % 16 * 64 + payload second) * 64 + payload third) :: ·) <$>
                      decodeFrom (index + 3) rest
                  else .error ⟨index, some 2⟩
            else .error ⟨index, some 1⟩
      else if lead < 0xF5 then
        match rest with
        | [] => .error ⟨index, none⟩
        | second :: rest =>
            if isSecond lead second then
              match rest with
              | [] => .error ⟨index, none⟩
              | third :: rest =>
                  if isContinuation third then
                    match rest with
                    | [] => .error ⟨index, none⟩
                    | fourth :: rest =>
                        if isContinuation fourth then
                          (Char.ofNat (((lead.toNat % 8 * 64 + payload second) * 64 + payload third) * 64 +
                            payload fourth) :: ·) <$> decodeFrom (index + 4) rest
                        else .error ⟨index, some 3⟩
                  else .error ⟨index, some 2⟩
            else .error ⟨index, some 1⟩
      else .error ⟨index, some 1⟩

/-- The text that the bytes spell in UTF-8, or the first flaw. -/
def decode (bytes : Bytes) : Except Flaw String := String.ofList <$> decodeFrom 0 bytes

def decode? (bytes : Bytes) : Option String := (decode bytes).toOption

end WebToken.Utf8
