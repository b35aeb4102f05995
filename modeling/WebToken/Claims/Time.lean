/-!
Time: instants, and durations between them, in nanoseconds. Both have bounds, so that a duration can be added to
an instant only where the sum can still be told.
-/

namespace WebToken

def nanosecondsPerSecond : Nat := 1000000000

/-- The longest duration either way: as many milliseconds as a signed number of 64 bits counts. -/
def Duration.limit : Nat := 9223372036854775807 * 1000000

/-- A duration, in nanoseconds. -/
structure Duration where
  nanoseconds : Int
  counted : nanoseconds.natAbs ≤ Duration.limit
  deriving DecidableEq, Repr

namespace Duration

def ofNanoseconds? (nanoseconds : Int) : Option Duration :=
  if counted : nanoseconds.natAbs ≤ limit then some ⟨nanoseconds, counted⟩ else none

def ofSeconds? (seconds : Int) : Option Duration := ofNanoseconds? (seconds * nanosecondsPerSecond)

def longest : Duration := ⟨limit, Nat.le_refl _⟩

instance : Zero Duration := ⟨⟨0, Nat.zero_le _⟩⟩

instance : Neg Duration :=
  ⟨fun duration => ⟨-duration.nanoseconds, (Int.natAbs_neg _).symm ▸ duration.counted⟩⟩

/-- The duration without its sign. -/
def magnitude (duration : Duration) : Duration := ⟨duration.nanoseconds.natAbs, duration.counted⟩

variable {nanoseconds seconds : Int} {duration : Duration}

theorem ofNanoseconds?_eq_some :
    ofNanoseconds? nanoseconds = some duration ↔ duration.nanoseconds = nanoseconds := by
  unfold ofNanoseconds?
  split
  case isTrue =>
      cases duration
      simp [eq_comm]
  case isFalse uncounted => exact ⟨nofun, fun same => absurd (same ▸ duration.counted) uncounted⟩

theorem ofNanoseconds?_eq_none : ofNanoseconds? nanoseconds = none ↔ limit < nanoseconds.natAbs := by
  unfold ofNanoseconds?
  split
  case isTrue counted => exact ⟨nofun, fun beyond => absurd counted (Nat.not_le_of_gt beyond)⟩
  case isFalse uncounted => exact ⟨fun _ => Nat.lt_of_not_le uncounted, fun _ => rfl⟩

@[simp] theorem nanoseconds_neg (duration : Duration) : (-duration).nanoseconds = -duration.nanoseconds := rfl

@[simp] theorem nanoseconds_magnitude (duration : Duration) :
    duration.magnitude.nanoseconds = duration.nanoseconds.natAbs := rfl

end Duration

namespace Instant

/-- The first and the last second that can be told. -/
def firstSecond : Int := -8334601228800

def lastSecond : Int := 8210266876799

/-- Whether nanoseconds since the beginning of 1970 end in a second that can be told. -/
def Told (nanoseconds : Int) : Prop :=
  firstSecond ≤ nanoseconds / nanosecondsPerSecond ∧ nanoseconds / nanosecondsPerSecond ≤ lastSecond

instance (nanoseconds : Int) : Decidable (Told nanoseconds) := inferInstanceAs (Decidable (_ ∧ _))

end Instant

/-- An instant, in nanoseconds since the beginning of 1970. It lies in no leap second, which has no such count. -/
structure Instant where
  nanoseconds : Int
  told : Instant.Told nanoseconds
  deriving DecidableEq, Repr

namespace Instant

def ofNanoseconds? (nanoseconds : Int) : Option Instant :=
  if told : Told nanoseconds then some ⟨nanoseconds, told⟩ else none

def ofSeconds? (seconds : Int) : Option Instant := ofNanoseconds? (seconds * nanosecondsPerSecond)

def seconds (instant : Instant) : Int := instant.nanoseconds / nanosecondsPerSecond

/-- The instant a duration later, if it can be told. -/
def add? (instant : Instant) (duration : Duration) : Option Instant :=
  ofNanoseconds? (instant.nanoseconds + duration.nanoseconds)

variable {nanoseconds seconds : Int} {instant : Instant}

theorem ofNanoseconds?_eq_some : ofNanoseconds? nanoseconds = some instant ↔ instant.nanoseconds = nanoseconds := by
  unfold ofNanoseconds?
  split
  case isTrue =>
      cases instant
      simp [eq_comm]
  case isFalse untold => exact ⟨nofun, fun same => absurd (same ▸ instant.told) untold⟩

theorem ofNanoseconds?_eq_none : ofNanoseconds? nanoseconds = none ↔ ¬Told nanoseconds := by
  unfold ofNanoseconds?
  split <;> simp [*]

theorem ofSeconds?_eq_some :
    ofSeconds? seconds = some instant ↔ instant.nanoseconds = seconds * nanosecondsPerSecond := ofNanoseconds?_eq_some

theorem ofSeconds?_eq_none : ofSeconds? seconds = none ↔ ¬(firstSecond ≤ seconds ∧ seconds ≤ lastSecond) := by
  rw [ofSeconds?, ofNanoseconds?_eq_none, Told, Int.mul_ediv_cancel seconds (by decide)]

end Instant

end WebToken
