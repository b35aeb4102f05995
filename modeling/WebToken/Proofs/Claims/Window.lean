import Mathlib.Algebra.Order.Group.Unbundled.Int
import WebToken.Proofs.Claims.Verdict

/-!
The window in which claims hold, in exact arithmetic. That the end of a leeway cannot always be told makes no
difference: no instant is later than one that cannot be told.
-/

namespace WebToken

namespace Duration

theorem magnitude_neg (duration : Duration) : (-duration).magnitude = duration.magnitude := by
  simp only [magnitude, nanoseconds_neg, Int.natAbs_neg]

end Duration

namespace Rule

variable {clock now instant base : Instant} {leeway : Duration} {claims : ClaimView} {tolerance : Int}

/-- What is asked of the time claims of a view, those that tell an instant, with a tolerance in nanoseconds. -/
def timeDemands (tolerance : Int) (now : Instant) (claims : ClaimView) : List Demand :=
  [⟨∀ exp, claims.time? "exp" = some exp → now.nanoseconds ≤ exp.nanoseconds + tolerance, .expired⟩,
    ⟨∀ iat, claims.time? "iat" = some iat → iat.nanoseconds ≤ now.nanoseconds + tolerance, .issuedInFuture⟩,
    ⟨∀ nbf, claims.time? "nbf" = some nbf → nbf.nanoseconds ≤ now.nanoseconds + tolerance, .usedTooSoon⟩]

theorem firstUnmet_expired : FirstUnmet (timeDemands tolerance now claims) .expired ↔
    ∃ exp, claims.time? "exp" = some exp ∧ exp.nanoseconds + tolerance < now.nanoseconds := by
  simp [timeDemands, firstUnmet_cons, firstUnmet_nil]

theorem firstUnmet_issuedInFuture : FirstUnmet (timeDemands tolerance now claims) .issuedInFuture ↔
    (∀ exp, claims.time? "exp" = some exp → now.nanoseconds ≤ exp.nanoseconds + tolerance) ∧
      ∃ iat, claims.time? "iat" = some iat ∧ now.nanoseconds + tolerance < iat.nanoseconds := by
  simp [timeDemands, firstUnmet_cons, firstUnmet_nil]

theorem firstUnmet_usedTooSoon : FirstUnmet (timeDemands tolerance now claims) .usedTooSoon ↔
    (∀ exp, claims.time? "exp" = some exp → now.nanoseconds ≤ exp.nanoseconds + tolerance) ∧
      (∀ iat, claims.time? "iat" = some iat → iat.nanoseconds ≤ now.nanoseconds + tolerance) ∧
        ∃ nbf, claims.time? "nbf" = some nbf ∧ now.nanoseconds + tolerance < nbf.nanoseconds := by
  simp [timeDemands, firstUnmet_cons, firstUnmet_nil]

theorem timeDemands_mono {longer : Int} (below : tolerance ≤ longer)
    (met : ∀ demand ∈ timeDemands tolerance now claims, demand.met) :
    ∀ demand ∈ timeDemands longer now claims, demand.met := by
  simp only [timeDemands, List.forall_mem_cons] at met ⊢
  obtain ⟨expiry, issue, begin, none⟩ := met
  have further (base : Int) : base + tolerance ≤ base + longer := Int.add_le_add_left below base
  refine ⟨?_, ?_, ?_, List.forall_mem_nil _⟩
  · exact fun exp told => Int.le_trans (expiry exp told) (further _)
  · exact fun iat told => Int.le_trans (issue iat told) (further _)
  · exact fun nbf told => Int.le_trans (begin nbf told) (further _)

/-- A sum that cannot be told lies behind the last instant, as an instant and a magnitude never fall short of the
first one. -/
theorem isAfter_eq_true :
    isAfter leeway instant base = true ↔ base.nanoseconds + |leeway.nanoseconds| < instant.nanoseconds := by
  rw [isAfter, Int.abs_eq_natAbs]
  cases reached : base.add? leeway.magnitude with
  | some limit =>
      have sum : limit.nanoseconds = base.nanoseconds + leeway.nanoseconds.natAbs :=
        Instant.ofNanoseconds?_eq_some.mp reached
      rw [Option.any_some, decide_eq_true_eq, sum]
  | none =>
      have untold : ¬Instant.Told (base.nanoseconds + leeway.nanoseconds.natAbs) :=
        Instant.ofNanoseconds?_eq_none.mp reached
      have least := base.told
      have most := instant.told
      simp only [Instant.Told, nanosecondsPerSecond] at untold least most
      simp only [Option.any_none, Bool.false_eq_true, false_iff]
      omega

/-- A claim is in the window if its instant, where it tells one, is not after the other. -/
theorem not_any_iff {told : Option Instant} {late : Instant → Bool} {within : Instant → Prop}
    (agree : ∀ instant, late instant = true ↔ ¬within instant) :
    (!told.any late) = true ↔ ∀ instant, told = some instant → within instant := by
  cases told <;> simp [← Bool.not_eq_true, agree]

theorem decides_checkWindow
    (agree : ∀ instant base : Instant, instant.nanoseconds ≤ base.nanoseconds + |leeway.nanoseconds| ↔
      instant.nanoseconds ≤ base.nanoseconds + tolerance) :
    Decides (timeDemands tolerance now claims) (checkWindow leeway now claims) := by
  have late (instant base : Instant) :
      isAfter leeway instant base = true ↔ ¬instant.nanoseconds ≤ base.nanoseconds + tolerance := by
    rw [isAfter_eq_true, ← agree, Int.not_le]
  refine Decides.andThen (.of_require ?expiry) (Decides.andThen (.of_require ?issue) (.of_require ?begin))
  case expiry => exact not_any_iff fun exp => late now exp
  case issue => exact not_any_iff fun iat => late iat now
  case begin => exact not_any_iff fun nbf => late nbf now

theorem decides_window (clock now : Instant) (leeway : Duration) (claims : ClaimView) :
    Decides (timeDemands |leeway.nanoseconds| now claims) (check clock claims (.window leeway (some now))) :=
  decides_checkWindow fun _ _ => Iff.rfl

/-- The window of time claims is decided in exact arithmetic: claims that tell an instant are expired, issued in the
future or used too soon, in this order, exactly if they are so by more than the magnitude of the leeway. So the sign
of the leeway makes no difference, and a longer one accepts whatever a shorter one does. This is about instants that lie
in no leap second: a clock that could tell one is assumed not to be asked during it. -/
theorem window_exact (clock now : Instant) (leeway : Duration) (claims : ClaimView) :
    Decides (timeDemands |leeway.nanoseconds| now claims) (check clock claims (.window leeway (some now))) ∧
    check clock claims (.window (-leeway) (some now)) = check clock claims (.window leeway (some now)) ∧
    ∀ longer : Duration, |leeway.nanoseconds| ≤ |longer.nanoseconds| →
      check clock claims (.window leeway (some now)) = .ok () →
        check clock claims (.window longer (some now)) = .ok () := by
  refine ⟨decides_window clock now leeway claims, ?signless, ?longer⟩
  case signless => simp only [check, checkWindow, isAfter, Duration.magnitude_neg]
  case longer =>
      intro longer below accepted
      have met : ∀ demand ∈ timeDemands |leeway.nanoseconds| now claims, demand.met :=
        (decides_window clock now leeway claims).accepts.mp accepted
      exact (decides_window clock now longer claims).accepts.mpr (timeDemands_mono below met)

/-- Claims that expire in the last second that can be told. -/
def claimsExpiringLast : ClaimView := fun name =>
  if name = "exp" then some (.time ⟨8210266876799000000000, by decide⟩) else none

/-- A second after that cannot be told, and yet the last instant is within it. -/
theorem window_exact_last_instant :
    let last : Instant := ⟨8210266876799999999999, by decide⟩
    let second : Duration := ⟨1000000000, by decide⟩
    (claimsExpiringLast.time? "exp").bind (·.add? second) = none ∧
      check last claimsExpiringLast (.window 0 (some last)) = .error .expired ∧
      check last claimsExpiringLast (.window second (some last)) = .ok () ∧
      check last claimsExpiringLast (.window (-second) (some last)) = .ok () ∧
      |second.nanoseconds| ≤ |(-Duration.longest).nanoseconds| ∧
      check last claimsExpiringLast (.window (-.longest) (some last)) = .ok () := by
  intro last second
  obtain ⟨strict, -, -⟩ := window_exact last last 0 claimsExpiringLast
  obtain ⟨decided, signless, longer⟩ := window_exact last last second claimsExpiringLast
  have told : claimsExpiringLast.time? "exp" = some ⟨8210266876799000000000, by decide⟩ := rfl
  have silent : claimsExpiringLast.time? "iat" = none ∧ claimsExpiringLast.time? "nbf" = none := ⟨rfl, rfl⟩
  have accepted : check last claimsExpiringLast (.window second (some last)) = .ok () := by
    refine decided.accepts.mpr ?_
    simp only [timeDemands, List.forall_mem_cons, told, silent, Option.some.injEq, forall_eq', reduceCtorEq,
      false_implies, implies_true, true_and]
    exact ⟨by decide, List.forall_mem_nil _⟩
  have expired : check last claimsExpiringLast (.window 0 (some last)) = .error .expired := by
    refine (strict.refuses _).mpr (.here fun met => ?_)
    exact absurd (met _ told) (by decide)
  have below : |second.nanoseconds| ≤ |(-Duration.longest).nanoseconds| := by decide
  exact ⟨by decide, expired, accepted, signless.trans accepted, below, longer _ below accepted⟩

end Rule

end WebToken
