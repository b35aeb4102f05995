import WebToken.Checked
import WebToken.Json.Document
import WebToken.Json.Record

/-!
What the members of an object say of the record that is read from them. A known member is given once at
most, so the record has it from the only value under its name. What is not known goes where the record
puts it.
-/

namespace WebToken.Json

variable {α β : Type}

/-- A document is read when its value is, and nothing trails it. -/
theorem read_eq_ok {reader : Node → Except Fault α} {bytes : Bytes} {content : α} :
    read reader bytes = .ok content ↔
      reader (Document.ofBytes bytes .ended).root = .ok content ∧ (Document.ofBytes bytes .ended).trailing = none := by
  rw [read, bind_eq_ok]
  constructor
  · rintro ⟨found, given, finished⟩
    split at finished
    · rename_i nothing
      obtain rfl := Except.ok.inj finished
      exact ⟨given, nothing⟩
    · cases finished
  · rintro ⟨given, nothing⟩
    exact ⟨content, given, by rw [nothing]⟩

/-- The members of an object. Other values have none. -/
def Node.members : Node → List (Body × Node)
  | .object members _ => members
  | _ => []

/-- The number of items of an array. -/
def Node.size? : Node → Option Nat
  | .array items _ => some items.length
  | _ => none

theorem length_eq_of_mapM {β : Type} {read : Node → Except Fault β} {items : List Node} {values : List β}
    (found : items.mapM read = .ok values) : values.length = items.length := by
  have same := congrArg List.length (mapM_eq_ok.mp found)
  rw [List.length_map, List.length_map] at same
  exact same.symm

theorem read_of_optional {read : Node → Except Fault β} {node : Node} {value : β}
    (found : node.optional read = .ok (some value)) : read node = .ok value := by
  unfold Node.optional at found
  split at found
  · cases found
  · obtain ⟨_, given, same⟩ := map_eq_ok.mp found
    exact Option.some.inj same ▸ given

theorem between_of_wholeBetween {low high number : Int} {node : Node}
    (found : node.wholeBetween low high = .ok number) : low ≤ number ∧ number ≤ high := by
  unfold Node.wholeBetween at found
  split at found
  · obtain ⟨value, _, found⟩ := bind_eq_ok.mp found
    split at found
    · split at found
      · rename_i within
        exact Except.ok.inj found ▸ within
      · cases found
    · cases found
  · cases found

/-- A list that may be left out is an array with as many items as are read, or null. -/
theorem size?_of_optional_list {β : Type} {read : Node → Except Fault β} {node : Node} {values : Option (List β)}
    (found : node.optional (Node.list read) = .ok values) : node.size? = values.map List.length := by
  unfold Node.optional at found
  split at found
  · cases found
    rfl
  · obtain ⟨items, listed, rfl⟩ := map_eq_ok.mp found
    unfold Node.list at listed
    split at listed
    · obtain ⟨read, allRead, listed⟩ := bind_eq_ok.mp listed
      obtain ⟨_, _, listed⟩ := bind_eq_ok.mp listed
      cases listed
      rw [Node.size?, Option.map_some, length_eq_of_mapM allRead]
    · cases listed

/-- The values that stand under a name. -/
def under (name : String) (members : List (Body × Node)) : List Node :=
  members.filterMap fun member => if member.1.read.toOption = some name then some member.2 else none

section Under

variable {name : String} {key : Body} {item : Node} {rest : List (Body × Node)}

theorem under_append (first others : List (Body × Node)) :
    under name (first ++ others) = under name first ++ under name others := List.filterMap_append

theorem under_cons_same (named : key.read = .ok name) : under name ((key, item) :: rest) = item :: under name rest := by
  rw [under, List.filterMap_cons, named]
  simp only [Except.toOption, if_pos]
  rfl

theorem under_cons_other {other : String} (named : key.read = .ok other) (differs : other ≠ name) :
    under name ((key, item) :: rest) = under name rest := by
  rw [under, List.filterMap_cons, named]
  simp only [Except.toOption, Option.some.injEq, if_neg differs]
  rfl

end Under

theorem under_subset (name : String) (member : Body × Node) (rest : List (Body × Node)) :
    under name rest ⊆ under name (member :: rest) := by
  rw [← List.singleton_append, under_append]
  exact List.subset_append_right _ _

/-- One value stands under a name, and it is read. -/
def Once (name : String) (read : Node → Except Fault β) (members : List (Body × Node)) : Prop :=
  ∃ node value, under name members = [node] ∧ read node = .ok value

def AtMostOnce (name : String) (read : Node → Except Fault β) (members : List (Body × Node)) : Prop :=
  under name members = [] ∨ Once name read members

namespace Record

variable {fields : List (Member α)} {other : Other α} {field : Member α}

/-- How members are read one after the other, from a record on to the one that they make. -/
inductive Reading (fields : List (Member α)) (other : Other α) :
    List (Body × Node) → List String → α → List String → α → Prop
  | done (seen : List String) (record : α) : Reading fields other [] seen record seen record
  | unknown {key item rest name seen record update names final} (named : key.read = .ok name)
      (foreign : fields.find? (·.name == name) = none) (read : other name item = .ok update)
      (others : Reading fields other rest seen (update record) names final) :
      Reading fields other ((key, item) :: rest) seen record names final
  | known {key item rest seen record update names final} {field : Member α} (named : key.read = .ok field.name)
      (own : fields.find? (·.name == field.name) = some field) (fresh : field.name ∉ seen)
      (read : field.read item = .ok update)
      (others : Reading fields other rest (field.name :: seen) (update record) names final) :
      Reading fields other ((key, item) :: rest) seen record names final

/-- Reading a value leaves what is looked at of the record as it is. -/
def Preserves (get : α → β) (read : Node → Except Fault (α → α)) : Prop :=
  ∀ node update, read node = .ok update → ∀ record, get (update record) = get record

theorem Preserves.of {γ : Type} {name : String} {presence : Presence} {read : Node → Except Fault β} {put : β → α → α}
    {get : α → γ} (kept : ∀ value record, get (put value record) = get record) :
    Preserves get (Member.of name presence read put).read := by
  intro node update given record
  obtain ⟨value, _, rfl⟩ := map_eq_ok.mp given
  exact kept value record

theorem preserves_skipOther (get : α → β) (name : String) : Preserves get (skipOther name) := by
  intro node update given record
  obtain ⟨_, _, rfl⟩ := map_eq_ok.mp given
  rfl

/-- What holds of a record still holds of it when a value has been read. -/
def Maintains (holds : α → Prop) (read : Node → Except Fault (α → α)) : Prop :=
  ∀ node update, read node = .ok update → ∀ record, holds record → holds (update record)

theorem Maintains.of {name : String} {presence : Presence} {read : Node → Except Fault β} {put : β → α → α}
    {holds : α → Prop}
    (kept : ∀ node value, read node = .ok value → ∀ record, holds record → holds (put value record)) :
    Maintains holds (Member.of name presence read put).read := by
  intro node update given
  obtain ⟨value, found, rfl⟩ := map_eq_ok.mp given
  exact kept node value found

theorem Preserves.maintains {get : α → β} {holds : α → Prop} {read : Node → Except Fault (α → α)}
    (preserves : Preserves get read) (shown : ∀ one other, get other = get one → holds one → holds other) :
    Maintains holds read := fun node update given record held =>
  shown record (update record) (preserves node update given record) held

/-- What the members give for a field, seen in what is looked at of the record: nothing, or one value. -/
inductive Gives (field : Member α) (get : α → β) (members : List (Body × Node)) (record final : α) : Prop
  | absent (missing : under field.name members = []) (same : get final = get record) :
      Gives field get members record final
  | once {node : Node} {update : α → α} {before : α} (only : under field.name members = [node])
      (read : field.read node = .ok update) (put : get final = get (update before)) :
      Gives field get members record final

theorem Gives.of_under_eq {get : α → β} {rest members : List (Body × Node)} {next record final : α}
    (gives : Gives field get rest next final) (same : under field.name members = under field.name rest)
    (kept : get next = get record) : Gives field get members record final := by
  cases gives with
  | absent missing unchanged => exact .absent (same.trans missing) (unchanged.trans kept)
  | once only read put => exact .once (same.trans only) read put

theorem name_ne_of_foreign {name : String} (own : fields.find? (·.name == field.name) = some field)
    (foreign : fields.find? (·.name == name) = none) : field.name ≠ name := by
  intro same
  subst same
  cases foreign.symm.trans own

theorem reading_of_readMembers {members : List (Body × Node)} {seen names : List String} {record final : α}
    (found : readMembers fields other members seen record = .ok (names, final)) :
    Reading fields other members seen record names final := by
  induction members generalizing seen record with
  | nil =>
      cases found
      exact .done _ _
  | cons member rest ih =>
      obtain ⟨key, item⟩ := member
      obtain ⟨name, named, found⟩ := bind_eq_ok.mp found
      split at found
      · rename_i foreign
        obtain ⟨update, read, found⟩ := bind_eq_ok.mp found
        exact .unknown named foreign read (ih found)
      · rename_i field own
        obtain rfl : field.name = name := by simpa using List.find?_some own
        split at found
        · cases found
        · rename_i fresh
          obtain ⟨update, read, found⟩ := bind_eq_ok.mp found
          exact .known named own (by simpa using fresh) read (ih found)

theorem reading_of_ofMembers {members : List (Body × Node)} {ending : Ending} {blank final : α}
    (found : ofMembers fields other blank members ending = .ok final) :
    ∃ names, Reading fields other members [] blank names final ∧
      ∀ field ∈ fields, field.presence = .required → field.name ∈ names := by
  obtain ⟨⟨names, record⟩, read, found⟩ := bind_eq_ok.mp found
  obtain ⟨_, _, found⟩ := bind_eq_ok.mp found
  split at found
  · rename_i complete
    obtain rfl := Except.ok.inj found
    refine ⟨names, reading_of_readMembers read, ?_⟩
    intro field present required
    simpa [required] using List.all_eq_true.mp complete field present
  · cases found

theorem check_of_ofMembers {members : List (Body × Node)} {ending : Ending} {blank final : α}
    (found : ofMembers fields other blank members ending = .ok final) : ending.check = .ok () := by
  obtain ⟨_, _, found⟩ := bind_eq_ok.mp found
  obtain ⟨_, closed, _⟩ := bind_eq_ok.mp found
  exact closed

namespace Reading

variable {members : List (Body × Node)} {seen names : List String} {record final : α}
  (reading : Reading fields other members seen record names final)

include reading

/-- A name is seen only where it stands. -/
theorem under_ne_nil {name : String} (present : name ∈ names) (fresh : name ∉ seen) : under name members ≠ [] := by
  induction reading with
  | done => exact absurd present fresh
  | @unknown key item rest found _ _ _ _ _ named _ _ _ ih =>
      by_cases same : found = name
      · subst same
        rw [under_cons_same named]
        exact List.cons_ne_nil _ _
      · rw [under_cons_other named same]
        exact ih present fresh
  | @known key item rest _ _ _ _ _ field named _ _ _ _ ih =>
      by_cases same : field.name = name
      · subst same
        rw [under_cons_same named]
        exact List.cons_ne_nil _ _
      · rw [under_cons_other named same]
        refine ih present fun again => ?_
        rcases List.mem_cons.mp again with same' | earlier
        · exact same same'.symm
        · exact fresh earlier

variable (own : fields.find? (·.name == field.name) = some field)

include own

/-- A field that was given before is not given again. -/
theorem under_eq_nil (given : field.name ∈ seen) : under field.name members = [] := by
  induction reading with
  | done => rfl
  | unknown named foreign _ _ ih =>
      rw [under_cons_other named (name_ne_of_foreign own foreign).symm]
      exact ih given
  | known named _ fresh _ _ ih =>
      rw [under_cons_other named fun same => fresh (same ▸ given)]
      exact ih (List.mem_cons_of_mem _ given)

/-- A field is given once at most. What the record has of it is then what was read, and is as before if the
field is not given. -/
theorem gives {get : α → β} (kept : ∀ another ∈ fields, another.name ≠ field.name → Preserves get another.read)
    (keptOther : ∀ name, Preserves get (other name)) : Gives field get members record final := by
  induction reading with
  | done => exact .absent rfl rfl
  | unknown named foreign read _ ih =>
      exact ih.of_under_eq (under_cons_other named (name_ne_of_foreign own foreign).symm) (keptOther _ _ _ read _)
  | @known _ item _ _ _ update _ _ another named anotherOwn _ read others ih =>
      by_cases same : another.name = field.name
      · -- The rest has seen the field by now, so it cannot give it again.
        obtain rfl : another = field := Option.some.inj (anotherOwn.symm.trans (same ▸ own))
        have nothing := others.under_eq_nil own List.mem_cons_self
        cases ih with
        | absent _ put =>
            refine .once ?_ read put
            rw [under_cons_same named, nothing]
        | once only => cases nothing.symm.trans only
      · exact ih.of_under_eq (under_cons_other named same)
          (kept another (List.mem_of_find?_eq_some anotherOwn) same _ _ read _)

end Reading

section Maintains

variable {holds : α → Prop} (kept : ∀ field ∈ fields, Maintains holds field.read)

include kept

theorem Reading.maintains {members : List (Body × Node)} {seen names : List String} {record final : α}
    (reading : Reading fields other members seen record names final) (keptOther : ∀ name, Maintains holds (other name))
    (start : holds record) : holds final := by
  induction reading with
  | done => exact start
  | unknown _ _ read _ ih => exact ih (keptOther _ _ _ read _ start)
  | known _ own _ read _ ih => exact ih (kept _ (List.mem_of_find?_eq_some own) _ _ read _ start)

theorem holds_of_readItems {ending : Ending} {items : List Node} {record final : α}
    (found : readItems ending fields items record = .ok final) (start : holds record) : holds final := by
  fun_induction readItems ending fields items record with
  | case1 =>
      obtain ⟨_, _, returned⟩ := bind_eq_ok.mp found
      exact Except.ok.inj returned ▸ start
  | case2 => cases found
  | case3 field fields record ih =>
      obtain ⟨_, _, found⟩ := bind_eq_ok.mp found
      split at found
      · exact ih (fun field later => kept field (List.mem_cons_of_mem _ later)) found start
      · cases found
  | case4 field fields item items record ih =>
      obtain ⟨update, read, found⟩ := bind_eq_ok.mp found
      exact ih update (fun field later => kept field (List.mem_cons_of_mem _ later)) found
        (kept field List.mem_cons_self _ _ read _ start)

/-- What holds of the blank record, and of a record whatever is read into it, holds of every record that is read. -/
theorem holds_of_read {node : Node} {blank final : α} (found : read fields other blank node = .ok final)
    (keptOther : ∀ name, Maintains holds (other name)) (start : holds blank) : holds final := by
  cases node with
  | object members ending =>
      obtain ⟨names, reading, _⟩ := reading_of_ofMembers found
      exact reading.maintains kept keptOther start
  | array items ending => exact holds_of_readItems kept found start
  | _ => cases found

end Maintains

theorem readMembers_of_reading {members : List (Body × Node)} {seen names : List String} {record final : α}
    (reading : Reading fields other members seen record names final) :
    readMembers fields other members seen record = .ok (names, final) := by
  induction reading with
  | done => rfl
  | unknown named foreign read _ ih =>
      rw [readMembers, named, ok_bind, foreign]
      simp only [read, ok_bind, ih]
  | known named own fresh read _ ih =>
      rw [readMembers, named, ok_bind, own]
      simp only [List.contains_iff_mem, fresh, if_false, read, ok_bind, ih]

/-- Members that can be read behind those that have been seen: each field is given once at most, and not again,
and what is not known is taken. -/
structure Readable (fields : List (Member α)) (other : Other α) (members : List (Body × Node)) (seen : List String) :
    Prop where
  named : ∀ member ∈ members, ∃ name, member.1.read = .ok name
  known : ∀ field ∈ fields, under field.name members = [] ∨
    field.name ∉ seen ∧ ∃ node update, under field.name members = [node] ∧ field.read node = .ok update
  foreign : ∀ name, fields.find? (·.name == name) = none → ∀ node ∈ under name members,
    ∃ update, other name node = .ok update

theorem Readable.exists_reading {members : List (Body × Node)} {seen : List String}
    (readable : Readable fields other members seen) (record : α) :
    ∃ names final, Reading fields other members seen record names final := by
  induction members generalizing seen record with
  | nil => exact ⟨seen, record, .done seen record⟩
  | cons member rest ih =>
      obtain ⟨key, item⟩ := member
      obtain ⟨⟨name, named⟩, restNamed⟩ := List.forall_mem_cons.mp readable.named
      have restForeign : ∀ name, fields.find? (·.name == name) = none → ∀ node ∈ under name rest,
          ∃ update, other name node = .ok update := fun name foreign node present =>
        readable.foreign name foreign node (under_subset name (key, item) rest present)
      cases own : fields.find? (·.name == name) with
      | none =>
          obtain ⟨update, read⟩ := readable.foreign name own item (by simp [under_cons_same named])
          have restKnown : ∀ field ∈ fields, under field.name rest = [] ∨ field.name ∉ seen ∧
              ∃ node update, under field.name rest = [node] ∧ field.read node = .ok update := by
            intro field present
            have differs : name ≠ field.name := fun same => by
              simpa [same] using List.find?_eq_none.mp own field present
            exact under_cons_other named differs ▸ readable.known field present
          obtain ⟨names, final, others⟩ := ih ⟨restNamed, restKnown, restForeign⟩ (update record)
          exact ⟨names, final, .unknown named own read others⟩
      | some field =>
          obtain rfl : field.name = name := by simpa using List.find?_some own
          have here := readable.known field (List.mem_of_find?_eq_some own)
          rw [under_cons_same named] at here
          obtain ⟨fresh, node, update, only, read⟩ := here.resolve_left (List.cons_ne_nil _ _)
          obtain ⟨rfl, nothing⟩ := List.cons.inj only
          -- The field stands nowhere in the rest, where it counts as seen.
          have restKnown : ∀ another ∈ fields, under another.name rest = [] ∨ another.name ∉ field.name :: seen ∧
              ∃ node update, under another.name rest = [node] ∧ another.read node = .ok update := by
            intro another present
            by_cases same : field.name = another.name
            · exact Or.inl (same ▸ nothing)
            · have known := readable.known another present
              rw [under_cons_other named same] at known
              refine known.imp_right ?_
              intro ⟨unseen, given⟩
              exact ⟨List.not_mem_cons_of_ne_of_not_mem (Ne.symm same) unseen, given⟩
          obtain ⟨names, final, others⟩ := ih ⟨restNamed, restKnown, restForeign⟩ (update record)
          exact ⟨names, final, .known named own fresh read others⟩

theorem Reading.mem_names {members : List (Body × Node)} {seen names : List String} {record final : α}
    (reading : Reading fields other members seen record names final)
    (own : fields.find? (·.name == field.name) = some field)
    (given : field.name ∈ seen ∨ under field.name members ≠ []) : field.name ∈ names := by
  induction reading with
  | done => exact given.resolve_right fun present => present rfl
  | unknown named foreign _ _ ih =>
      rw [under_cons_other named (name_ne_of_foreign own foreign).symm] at given
      exact ih given
  | @known _ _ _ _ _ _ _ _ another named _ _ _ _ ih =>
      by_cases same : another.name = field.name
      · exact ih (Or.inl (same ▸ List.mem_cons_self))
      · rw [under_cons_other named same] at given
        exact ih (given.imp_left (List.mem_cons_of_mem _))

/-- A record is read from members that can be read and give what is required. -/
theorem Readable.exists_ofMembers {members : List (Body × Node)} (readable : Readable fields other members [])
    (own : ∀ field ∈ fields, fields.find? (·.name == field.name) = some field)
    (complete : ∀ field ∈ fields, field.presence = .required → under field.name members ≠ []) (blank : α) :
    ∃ names final, Reading fields other members [] blank names final ∧
      ofMembers fields other blank members .closed = .ok final := by
  obtain ⟨names, final, reading⟩ := readable.exists_reading blank
  have found : (fields.all fun field => field.presence ≠ .required || names.contains field.name) = true := by
    rw [List.all_eq_true]
    intro field present
    by_cases required : field.presence = .required
    · simpa [required] using reading.mem_names (own field present) (Or.inr (complete field present required))
    · simp [required]
  refine ⟨names, final, reading, ?_⟩
  rw [ofMembers, readMembers_of_reading reading, ok_bind]
  simp only [found, if_true]
  rfl

section Field

variable {γ : Type} {members : List (Body × Node)} {seen names : List String} {record final : α} {name : String}
  {presence : Presence} {read : Node → Except Fault β} {put : β → α → α} {get : α → γ}

theorem known_of_once {node : Node} {value : β} (fresh : name ∉ seen) (only : under name members = [node])
    (found : read node = .ok value) :
    under name members = [] ∨ name ∉ seen ∧ ∃ node update, under name members = [node] ∧
      (Member.of name presence read put).read node = .ok update :=
  Or.inr ⟨fresh, node, put value, only, map_eq_ok.mpr ⟨value, found, rfl⟩⟩

/-- A field that is given is in the record as it was read. -/
theorem Reading.get_of_once (reading : Reading fields other members seen record names final)
    (own : fields.find? (·.name == name) = some (.of name presence read put))
    (kept : ∀ another ∈ fields, another.name ≠ name → Preserves get another.read)
    (keptOther : ∀ name, Preserves get (other name)) {node : Node} {value : β} {shown : γ}
    (only : under name members = [node]) (found : read node = .ok value)
    (stored : ∀ record, get (put value record) = shown) : get final = shown := by
  have gives : Gives (.of name presence read put) get members record final := reading.gives own kept keptOther
  cases gives with
  | absent missing => cases only.symm.trans missing
  | once alone given same =>
      obtain ⟨rfl, _⟩ := List.cons.inj (only.symm.trans alone)
      obtain ⟨again, foundAgain, rfl⟩ := map_eq_ok.mp given
      obtain rfl := Except.ok.inj (found.symm.trans foundAgain)
      exact same.trans (stored _)

/-- A field that is not given is as it was. -/
theorem Reading.get_of_absent (reading : Reading fields other members seen record names final)
    (own : fields.find? (·.name == name) = some (.of name presence read put))
    (kept : ∀ another ∈ fields, another.name ≠ name → Preserves get another.read)
    (keptOther : ∀ name, Preserves get (other name)) (missing : under name members = []) : get final = get record := by
  have gives : Gives (.of name presence read put) get members record final := reading.gives own kept keptOther
  cases gives with
  | absent _ same => exact same
  | once alone => cases missing.symm.trans alone

end Field

theorem Reading.at_most_once {members : List (Body × Node)} {seen names : List String} {record final : α}
    {name : String} {presence : Presence} {read : Node → Except Fault β} {put : β → α → α}
    (reading : Reading fields other members seen record names final)
    (own : fields.find? (·.name == name) = some (.of name presence read put)) :
    AtMostOnce name read members := by
  have unseen (read : Node → Except Fault (α → α)) : Preserves (fun _ => ()) read := fun _ _ _ _ => rfl
  have gives : Gives (.of name presence read put) (fun _ => ()) members record final :=
    reading.gives own (fun another _ _ => unseen another.read) (fun name => unseen (other name))
  cases gives with
  | absent missing => exact Or.inl missing
  | once only given =>
      obtain ⟨value, found, _⟩ := map_eq_ok.mp given
      exact Or.inr ⟨_, value, only, found⟩

/-- A record that is read gives each required field once. -/
theorem once_of_ofMembers {members : List (Body × Node)} {ending : Ending} {blank final : α} {name : String}
    {read : Node → Except Fault β} {put : β → α → α}
    (found : ofMembers fields other blank members ending = .ok final)
    (own : fields.find? (·.name == name) = some (.of name .required read put)) : Once name read members := by
  obtain ⟨names, reading, complete⟩ := reading_of_ofMembers found
  have present : name ∈ names := complete _ (List.mem_of_find?_eq_some own) rfl
  exact (reading.at_most_once own).resolve_left (reading.under_ne_nil present List.not_mem_nil)

end Record

end WebToken.Json
