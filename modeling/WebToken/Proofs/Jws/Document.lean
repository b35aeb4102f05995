import WebToken.Proofs.Header
import WebToken.Proofs.Jws.Parsing
import WebToken.Proofs.Text.Segment

/-!
Signed tokens as documents. Any parts can be written as a document with one signature, and that document
carries them.
-/

namespace WebToken.Jws

open Json

def Entry.slots (entry : Entry) : List (String × Option (List Char)) :=
  [("protected", entry.protectedText.map Text.quote),
    ("header", entry.unprotectedHeader.map fun header => Text.members header.entries),
    ("signature", some (Text.quote entry.signature))]

def Entry.write (entry : Entry) : List Char := Text.members (given entry.slots)

def Parts.entry (parts : Parts) : Entry := ⟨some parts.protectedText, some parts.unprotectedHeader, parts.signature⟩

def Parts.slots (parts : Parts) : List (String × Option (List Char)) :=
  [("payload", some (Text.quote parts.payload)), ("signatures", some (Text.list [parts.entry.write]))]

/-- The parts as a document with a list of one signature. -/
def Parts.toDocument (parts : Parts) : String := String.ofList (Text.members (given parts.slots))

variable {parts : Parts}

theorem Parts.writes_entry (counted : parts.unprotectedHeader.Counted) :
    Writes (entryFields Header.read) parts.entry.slots { signature := "" } parts.entry := by
  refine .of (Reads.optional (.text parts.protectedText)) ?_
  refine .of (Reads.optional ((Header.writes counted).read (by decide) Record.skipOther)) ?_
  refine .of (.text parts.signature) ?_
  exact .nil parts.entry

theorem Parts.writes_document (counted : parts.unprotectedHeader.Counted) :
    Writes documentFields parts.slots {} { payload := parts.payload, signatures := some [parts.entry] } := by
  refine .of (.text parts.payload) ?_
  refine .of (Reads.optional (.list [parts.entry] ?_)) ?_
  · intro entry only
    obtain rfl := List.mem_singleton.mp only
    exact (writes_entry counted).read (by decide) Record.skipOther
  · exact .nil _

theorem carries_toDocument (counted : parts.unprotectedHeader.Counted) : Carries parts.toDocument parts := by
  have trimmed : WebToken.Text.trim parts.toDocument = parts.toDocument :=
    WebToken.Text.trim_enclosed _ (by decide) (by decide)
  have braced : looksLikeDocument parts.toDocument = true := by
    rw [looksLikeDocument, Parts.toDocument, String.toList_ofList]
    rfl
  obtain ⟨members, spelled, found⟩ := (Parts.writes_document counted).ofMembers (by decide) keepOther
  have read : Json.read Document.read (Bytes.ofText parts.toDocument) =
      .ok { payload := parts.payload, signatures := some [parts.entry] } := by
    rw [Parts.toDocument, Bytes.ofText_ofList, (Spells.members spelled).read]
    exact found
  rw [← trimmed] at braced read
  exact .members braced read rfl

end WebToken.Jws
