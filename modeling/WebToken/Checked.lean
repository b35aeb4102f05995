/-!
Results that may fail. A chain of checked steps succeeds exactly when every step does, and it fails
with the cause of the first step that fails.
-/

namespace WebToken

variable {ε δ α β : Type}

def require (absent : ε) : Option α → Except ε α
  | some value => .ok value
  | none => .error absent

theorem require_eq_ok {absent : ε} {found : Option α} {value : α} :
    require absent found = .ok value ↔ found = some value := by
  cases found <;> simp [require]

theorem require_eq_error {absent cause : ε} {found : Option α} :
    require absent found = .error cause ↔ found = none ∧ absent = cause := by
  cases found <;> simp [require]

theorem ok_bind (value : α) (next : α → Except ε β) : (Except.ok value >>= next) = next value := rfl

theorem bind_eq_ok {first : Except ε α} {next : α → Except ε β} {result : β} :
    (first >>= next) = .ok result ↔ ∃ value, first = .ok value ∧ next value = .ok result := by
  cases first with
  | error cause =>
      constructor
      · nofun
      · intro ⟨_, missing, _⟩
        cases missing
  | ok value =>
      constructor
      · intro rest
        exact ⟨value, rfl, rest⟩
      · intro ⟨other, same, rest⟩
        obtain rfl : value = other := Except.ok.inj same
        exact rest

theorem bind_eq_error {first : Except ε α} {next : α → Except ε β} {cause : ε} :
    (first >>= next) = .error cause ↔
      first = .error cause ∨ ∃ value, first = .ok value ∧ next value = .error cause := by
  cases first with
  | error found =>
      constructor
      · exact fun same => Or.inl (congrArg Except.error (Except.error.inj same))
      · rintro (same | ⟨_, missing, _⟩)
        · exact congrArg Except.error (Except.error.inj same)
        · cases missing
  | ok value =>
      constructor
      · exact fun rest => Or.inr ⟨value, rfl, rest⟩
      · rintro (missing | ⟨_, same, rest⟩)
        · cases missing
        · exact Except.ok.inj same ▸ rest

/-- A step that only checks something goes before the next one. -/
theorem check_bind_eq_ok {first : Except ε Unit} {next : Unit → Except ε β} {result : β} :
    (first >>= next) = .ok result ↔ first = .ok () ∧ next () = .ok result := by
  rw [bind_eq_ok]
  constructor
  · intro ⟨_, passed, rest⟩
    exact ⟨passed, rest⟩
  · intro ⟨passed, rest⟩
    exact ⟨(), passed, rest⟩

theorem check_bind_eq_error {first : Except ε Unit} {next : Unit → Except ε β} {cause : ε} :
    (first >>= next) = .error cause ↔ first = .error cause ∨ first = .ok () ∧ next () = .error cause := by
  rw [bind_eq_error]
  refine or_congr_right ⟨?_, ?_⟩
  · intro ⟨_, passed, rest⟩
    exact ⟨passed, rest⟩
  · intro ⟨passed, rest⟩
    exact ⟨(), passed, rest⟩

theorem map_eq_ok {first : Except ε α} {change : α → β} {result : β} :
    change <$> first = .ok result ↔ ∃ value, first = .ok value ∧ change value = result := by
  cases first with
  | error cause =>
      constructor
      · nofun
      · intro ⟨_, missing, _⟩
        cases missing
  | ok value =>
      constructor
      · intro same
        exact ⟨value, rfl, Except.ok.inj same⟩
      · intro ⟨other, found, same⟩
        obtain rfl : value = other := Except.ok.inj found
        exact congrArg Except.ok same

theorem map_eq_error {first : Except ε α} {change : α → β} {cause : ε} :
    change <$> first = .error cause ↔ first = .error cause := by
  cases first with
  | error found => exact ⟨fun same => Except.error.inj same ▸ rfl, fun same => Except.error.inj same ▸ rfl⟩
  | ok value => exact ⟨nofun, nofun⟩

theorem mapError_eq_ok {first : Except ε α} {change : ε → δ} {result : α} :
    first.mapError change = .ok result ↔ first = .ok result := by
  cases first with
  | error cause => exact ⟨nofun, nofun⟩
  | ok value => exact ⟨fun same => Except.ok.inj same ▸ rfl, fun same => Except.ok.inj same ▸ rfl⟩

theorem mapError_eq_error {first : Except ε α} {change : ε → δ} {cause : δ} :
    first.mapError change = .error cause ↔ ∃ found, first = .error found ∧ change found = cause := by
  cases first with
  | error found =>
      constructor
      · intro same
        exact ⟨found, rfl, Except.error.inj same⟩
      · intro ⟨other, same, changed⟩
        obtain rfl : found = other := Except.error.inj same
        exact congrArg Except.error changed
  | ok value =>
      constructor
      · nofun
      · intro ⟨_, missing, _⟩
        cases missing

/-- A list is read when every item is. -/
theorem mapM_eq_ok {read : α → Except ε β} {items : List α} {values : List β} :
    items.mapM read = .ok values ↔ items.map read = values.map .ok := by
  induction items generalizing values with
  | nil => cases values <;> simp [pure, Except.pure]
  | cons item items ih =>
      simp only [List.mapM_cons, bind_eq_ok, List.map_cons]
      constructor
      · intro ⟨value, found, values, others, made⟩
        obtain rfl := Except.ok.inj made
        rw [found, ih.mp others, List.map_cons]
      · intro same
        obtain ⟨value, values, rfl, found, others⟩ := List.map_eq_cons_iff.mp same.symm
        exact ⟨value, found.symm, values, ih.mpr others.symm, rfl⟩

theorem exists_mapM_eq_ok {read : α → Except ε β} {items : List α} :
    (∃ values, items.mapM read = .ok values) ↔ ∀ item ∈ items, ∃ value, read item = .ok value := by
  induction items with
  | nil => exact ⟨fun _ => nofun, fun _ => ⟨[], rfl⟩⟩
  | cons item items ih =>
      simp only [List.mapM_cons, bind_eq_ok, List.forall_mem_cons]
      constructor
      · intro ⟨_, value, found, values, others, _⟩
        exact ⟨⟨value, found⟩, ih.mp ⟨values, others⟩⟩
      · intro ⟨⟨value, found⟩, rest⟩
        obtain ⟨values, others⟩ := ih.mpr rest
        exact ⟨value :: values, value, found, values, others, rfl⟩

/-- The first item that cannot be read says why a list cannot. -/
theorem mapM_eq_error {read : α → Except ε β} {items : List α} {cause : ε} :
    items.mapM read = .error cause ↔ ∃ before item after, items = before ++ item :: after ∧
      (∀ other ∈ before, ∃ value, read other = .ok value) ∧ read item = .error cause := by
  induction items with
  | nil => simp [pure, Except.pure]
  | cons item items ih =>
      simp only [List.mapM_cons, bind_eq_error]
      constructor
      · rintro (first | ⟨value, found, later | ⟨values, _, made⟩⟩)
        · exact ⟨[], item, items, rfl, nofun, first⟩
        · obtain ⟨before, bad, after, rfl, sound, first⟩ := ih.mp later
          exact ⟨item :: before, bad, after, rfl, List.forall_mem_cons.mpr ⟨⟨value, found⟩, sound⟩, first⟩
        · cases made
      · intro ⟨before, bad, after, cut, sound, first⟩
        cases before with
        | nil =>
            obtain ⟨rfl, rfl⟩ := List.cons.inj cut
            exact Or.inl first
        | cons other before =>
            obtain ⟨rfl, rfl⟩ := List.cons.inj cut
            obtain ⟨⟨value, found⟩, sound⟩ := List.forall_mem_cons.mp sound
            exact Or.inr ⟨value, found, Or.inl (ih.mpr ⟨before, bad, after, rfl, sound, first⟩)⟩

theorem ok_of_toOption {found : Except ε α} {value : α} (present : found.toOption = some value) :
    found = .ok value := by
  cases found with
  | error cause => cases present
  | ok other => exact congrArg Except.ok (Option.some.inj present)

end WebToken
