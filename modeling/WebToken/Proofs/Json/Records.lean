import WebToken.Json.Record
import WebToken.Proofs.Json.Spelling

/-!
Records: a record whose members are written one by one is read back as it was. Members may be left
out unless they are required, and each is written in its own way.
-/

namespace WebToken.Json

variable {α β : Type}

def Reads (read : Node → Except Fault β) (text : List Char) (value : β) : Prop :=
  ∃ node, Spells text node ∧ read node = .ok value ∧ node ≠ .word .null none

namespace Reads

theorem text (text : String) : Reads Node.text (Text.quote text) text :=
  ⟨_, .quote text, Body.read_quoted text, nofun⟩

theorem wholeBetween {low high number : Int} (least : low ≤ number) (most : number ≤ high)
    (sized : -(Nat.pow 2 63 : Nat) ≤ low ∧ high < (Nat.pow 2 64 : Nat)) :
    Reads (Node.wholeBetween low high) (Text.whole number) number := by
  refine ⟨_, .whole number, ?_, nofun⟩
  have value := Numeral.value?_ofWhole (Int.le_trans sized.1 least) (Int.lt_of_le_of_lt most sized.2)
  rw [Node.wholeBetween, Node.readNumber]
  simp only [value, ok_bind]
  rw [if_pos ⟨least, most⟩]

theorem map {γ : Type} {read : Node → Except Fault β} {text : List Char} {value : β} (reads : Reads read text value)
    (change : β → γ) : Reads (fun node => change <$> read node) text (change value) := by
  obtain ⟨node, spelled, found, present⟩ := reads
  exact ⟨node, spelled, congrArg (change <$> ·) found, present⟩

theorem optional {read : Node → Except Fault β} {text : List Char} {value : β} (reads : Reads read text value) :
    Reads (Node.optional read) text (some value) := by
  obtain ⟨node, spelled, found, notNull⟩ := reads
  refine ⟨node, spelled, ?_, notNull⟩
  unfold Node.optional
  split
  · exact absurd rfl notNull
  · rw [found]
    rfl

theorem list {read : Node → Except Fault β} {write : β → List Char} (values : List β)
    (reads : ∀ value ∈ values, Reads read (write value) value) :
    Reads (Node.list read) (Text.list (values.map write)) values := by
  have spelled : ∃ nodes, List.Forall₂ Spells (values.map write) nodes ∧ nodes.mapM read = .ok values := by
    induction values with
    | nil => exact ⟨[], .nil, rfl⟩
    | cons value values ih =>
        obtain ⟨first, others⟩ := List.forall_mem_cons.mp reads
        obtain ⟨node, spelled, found, _⟩ := first
        obtain ⟨nodes, allSpelled, allFound⟩ := ih others
        refine ⟨node :: nodes, .cons spelled allSpelled, ?_⟩
        rw [List.mapM_cons, found, allFound]
        rfl
  obtain ⟨nodes, spelled, found⟩ := spelled
  refine ⟨_, .list spelled, ?_, nofun⟩
  rw [Node.list, found]
  rfl

end Reads

/-- What stands in a document for the fields of a record, from a record on to the one that they make:
the text of each field that is there. -/
inductive Writes : List (Member α) → List (String × Option (List Char)) → α → α → Prop
  | nil (record : α) : Writes [] [] record record
  | absent {field : Member α} {fields slots record final} (optional : field.presence ≠ .required)
      (others : Writes fields slots record final) :
      Writes (field :: fields) ((field.name, none) :: slots) record final
  | present {field : Member α} {fields slots record final} {text : List Char} {update : α → α}
      (reads : Reads field.read text update) (others : Writes fields slots (update record) final) :
      Writes (field :: fields) ((field.name, some text) :: slots) record final

def given (slots : List (String × Option (List Char))) : List (String × List Char) :=
  slots.filterMap fun slot => slot.2.map fun text => (slot.1, text)

namespace Writes

variable {fields : List (Member α)} {slots : List (String × Option (List Char))} {record final : α}

theorem of {name : String} {presence : Presence} {read : Node → Except Fault β} {put : β → α → α} {text : List Char}
    {value : β} (reads : Reads read text value) (others : Writes fields slots (put value record) final) :
    Writes (.of name presence read put :: fields) ((name, some text) :: slots) record final :=
  @present _ (.of name presence read put) _ _ _ _ _ _ (reads.map put) others

theorem optional {name : String} {read : Node → Except Fault β} {put : Option β → α → α}
    {write : β → List Char} {value : Option β}
    (reads : ∀ found, value = some found → Reads read (write found) found)
    (unset : put none record = record) (others : Writes fields slots (put value record) final) :
    Writes (.of name .optional (Node.optional read) put :: fields) ((name, value.map write) :: slots)
      record final := by
  cases value with
  | none =>
      rw [unset] at others
      exact @absent _ (.of name .optional (Node.optional read) put) _ _ _ _ nofun others
  | some found =>
      exact of (reads found rfl).optional others

theorem find?_name {all : List (Member α)} (distinct : (all.map (·.name)).Nodup) {field : Member α}
    (known : field ∈ all) : all.find? (·.name == field.name) = some field := by
  induction all with
  | nil => cases known
  | cons first others ih =>
      obtain ⟨fresh, distinct⟩ := List.nodup_cons.mp distinct
      rcases List.mem_cons.mp known with rfl | later
      · exact List.find?_cons_of_pos (beq_self_eq_true _)
      · have differs : first.name ≠ field.name := fun same =>
          fresh (List.mem_map.mpr ⟨field, later, same.symm⟩)
        rw [List.find?_cons_of_neg (by simpa using differs), ih distinct later]

/-- Members are read one by one; `all` are the fields of the whole record and `seen` the names of
those that came before. -/
theorem readMembers {all : List (Member α)} (other : Record.Other α) (seen : List String)
    (writes : Writes fields slots record final)
    (known : ∀ field ∈ fields, all.find? (·.name == field.name) = some field)
    (distinct : (fields.map (·.name)).Nodup) (unseen : ∀ field ∈ fields, field.name ∉ seen) :
    ∃ members names, List.Forall₂ SpellsMember (given slots) members ∧
      Record.readMembers all other members seen record = .ok (names, final) ∧
      (∀ name ∈ seen, name ∈ names) ∧
      ∀ field ∈ fields, field.presence = .required → field.name ∈ names := by
  induction writes generalizing seen with
  | nil record => exact ⟨[], seen, .nil, rfl, fun _ named => named, nofun⟩
  | @absent field fields slots record final optional others ih =>
      obtain ⟨fresh, distinct⟩ := List.nodup_cons.mp distinct
      obtain ⟨members, names, spelled, read, kept, found⟩ :=
        ih seen (fun field present => known field (List.mem_cons_of_mem _ present)) distinct
          (fun field present => unseen field (List.mem_cons_of_mem _ present))
      refine ⟨members, names, spelled, read, kept, fun field present required => ?_⟩
      rcases List.mem_cons.mp present with rfl | later
      · exact absurd required optional
      · exact found field later required
  | @present field fields slots record final text update reads others ih =>
      obtain ⟨fresh, distinct⟩ := List.nodup_cons.mp distinct
      obtain ⟨node, spells, found, _⟩ := reads
      obtain ⟨members, names, spelled, read, kept, required⟩ :=
        ih (field.name :: seen) (fun field present => known field (List.mem_cons_of_mem _ present)) distinct
          (fun other present named => by
            rcases List.mem_cons.mp named with same | before
            · exact fresh (List.mem_map.mpr ⟨other, present, same⟩)
            · exact unseen other (List.mem_cons_of_mem _ present) before)
      have name : (Body.quoted field.name).read = .ok field.name := Body.read_quoted field.name
      have first : seen.contains field.name = false := by
        simpa using unseen field List.mem_cons_self
      refine ⟨(.quoted field.name, node) :: members, names, .cons ⟨rfl, spells⟩ spelled, ?_,
        fun other before => kept other (List.mem_cons_of_mem _ before), fun other present needed => ?_⟩
      · rw [Record.readMembers, name, ok_bind, known field List.mem_cons_self]
        simp only [first, Bool.false_eq_true, if_false, found, ok_bind]
        exact read
      · rcases List.mem_cons.mp present with rfl | later
        · exact kept _ List.mem_cons_self
        · exact required other later needed

theorem ofMembers (writes : Writes fields slots record final) (distinct : (fields.map (·.name)).Nodup)
    (other : Record.Other α) :
    ∃ members, List.Forall₂ SpellsMember (given slots) members ∧
      Record.ofMembers fields other record members .closed = .ok final := by
  obtain ⟨members, names, spelled, read, _, required⟩ :=
    writes.readMembers other [] (fun _ known => find?_name distinct known) distinct
      (fun _ _ => List.not_mem_nil)
  refine ⟨members, spelled, ?_⟩
  have complete : (fields.all fun field => field.presence ≠ .required || names.contains field.name) = true := by
    rw [List.all_eq_true]
    intro field present
    by_cases needed : field.presence = .required
    · simpa [needed] using required field present needed
    · simp [needed]
  rw [Record.ofMembers, read, ok_bind]
  simp only [complete, if_true]
  rfl

/-- A record is read back from the members that are there. -/
theorem read (writes : Writes fields slots record final) (distinct : (fields.map (·.name)).Nodup)
    (other : Record.Other α) :
    Reads (Record.read fields other record) (Text.members (given slots)) final := by
  obtain ⟨members, spelled, found⟩ := writes.ofMembers distinct other
  exact ⟨.object members .closed, .members spelled, found, nofun⟩

end Writes

/-- What stands in an array for the fields of a record: a text for each, which is read into the record. -/
inductive Lists : List (Member α) → List (List Char) → α → α → Prop
  | nil (record : α) : Lists [] [] record record
  | cons {field : Member α} {fields texts record final} {text : List Char} {node : Node} {update : α → α}
      (spelled : Spells text node) (read : field.read node = .ok update)
      (others : Lists fields texts (update record) final) :
      Lists (field :: fields) (text :: texts) record final

namespace Lists

variable {fields : List (Member α)} {texts : List (List Char)} {record final : α}

theorem of {name : String} {presence : Presence} {read : Node → Except Fault β} {put : β → α → α} {text : List Char}
    {value : β} (reads : Reads read text value) (others : Lists fields texts (put value record) final) :
    Lists (.of name presence read put :: fields) (text :: texts) record final := by
  obtain ⟨node, spelled, found, _⟩ := reads.map put
  exact @cons _ (.of name presence read put) _ _ _ _ _ _ _ spelled found others

/-- What is not there is written as null. -/
theorem optional {name : String} {presence : Presence} {read : Node → Except Fault β} {put : Option β → α → α}
    {write : β → List Char} {value : Option β} (reads : ∀ found, value = some found → Reads read (write found) found)
    (others : Lists fields texts (put value record) final) :
    Lists (.of name presence (Node.optional read) put :: fields) ((value.map write).getD Value.null.write :: texts)
      record final := by
  cases value with
  | none => exact @cons _ (.of name presence (Node.optional read) put) _ _ _ _ _ _ _ .null rfl others
  | some found => exact of (reads found rfl).optional others

theorem read (lists : Lists fields texts record final) (other : Record.Other α) :
    ∃ nodes, List.Forall₂ Spells texts nodes ∧ Record.read fields other record (.array nodes .closed) = .ok final := by
  unfold Record.read
  induction lists with
  | nil record => exact ⟨[], .nil, rfl⟩
  | @cons field fields texts record final text node update spelled read _ ih =>
      obtain ⟨nodes, allSpelled, found⟩ := ih
      refine ⟨node :: nodes, .cons spelled allSpelled, ?_⟩
      dsimp only at found ⊢
      rw [Record.readItems, read, ok_bind, found]

end Lists

/-- An array has no more items than the record has fields, and only fields with a default lack one. -/
theorem Record.missing_of_readItems {ending : Ending} {fields : List (Member α)} {items : List Node} {record final : α}
    (found : readItems ending fields items record = .ok final) :
    items.length ≤ fields.length ∧ ∀ field ∈ fields.drop items.length, field.presence = .defaulted := by
  fun_induction readItems ending fields items record with
  | case1 => exact ⟨Nat.le_refl _, nofun⟩
  | case2 => cases found
  | case3 field fields record ih =>
      obtain ⟨_, _, found⟩ := bind_eq_ok.mp found
      split at found
      · rename_i defaulted
        exact ⟨Nat.zero_le _, List.forall_mem_cons.mpr ⟨defaulted, (ih found).2⟩⟩
      · cases found
  | case4 field fields item items record ih =>
      obtain ⟨update, _, found⟩ := bind_eq_ok.mp found
      obtain ⟨bound, missing⟩ := ih update found
      exact ⟨Nat.succ_le_succ bound, missing⟩

end WebToken.Json
