import WebToken.Json.Node

/-!
Reading records: objects with known members, each read in its own way into a record. A record may
also be given as the array of its members. No known member may be given twice; what becomes of the
others is up to the record.
-/

namespace WebToken.Json

/-- Whether a member may be left out: not at all, of an object only, or of an array too. -/
inductive Presence
  | required
  | optional
  | defaulted
  deriving DecidableEq, Repr

structure Member (α : Type) where
  name : String
  presence : Presence
  read : Node → Except Fault (α → α)

namespace Member

variable {α β : Type}

def of (name : String) (presence : Presence) (read : Node → Except Fault β) (put : β → α → α) : Member α :=
  ⟨name, presence, fun node => put <$> read node⟩

end Member

namespace Record

variable {α : Type}

/-- What is read from a member that is not known. -/
abbrev Other (α : Type) := String → Node → Except Fault (α → α)

def skipOther : Other α := fun _ node => (fun () record => record) <$> node.skip

def readMembers (fields : List (Member α)) (other : Other α) :
    List (Body × Node) → (seen : List String) → α → Except Fault (List String × α)
  | [], seen, record => .ok (seen, record)
  | (key, item) :: rest, seen, record => do
      let name ← key.read
      match fields.find? (·.name == name) with
      | none =>
          let update ← other name item
          readMembers fields other rest seen (update record)
      | some field =>
          if seen.contains name then .error .mismatched
          else do
            let update ← field.read item
            readMembers fields other rest (name :: seen) (update record)

def readItems (ending : Ending) : List (Member α) → List Node → α → Except Fault α
  | [], [], record => do
      ending.check
      return record
  | [], _ :: _, _ => .error .malformed
  | field :: fields, [], record => do
      ending.check
      if field.presence = .defaulted then readItems ending fields [] record else .error .mismatched
  | field :: fields, item :: items, record => do
      let update ← field.read item
      readItems ending fields items (update record)

def ofMembers (fields : List (Member α)) (other : Other α) (blank : α) (members : List (Body × Node))
    (ending : Ending) : Except Fault α := do
  let (seen, record) ← readMembers fields other members [] blank
  ending.check
  if fields.all fun field => field.presence ≠ .required || seen.contains field.name then .ok record
  else .error .mismatched

def read (fields : List (Member α)) (other : Other α) (blank : α) : Node → Except Fault α
  | .object members ending => ofMembers fields other blank members ending
  | .array items ending => readItems ending fields items blank
  | node => .error node.refusal

end Record

end WebToken.Json
