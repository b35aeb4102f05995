import WebToken.Proofs.Claims.Agreement
import WebToken.Proofs.Claims.Window
import WebToken.Proofs.Json.Double

/-!
Numeric dates. A JSON number tells the instant at its whole seconds, if that can be told at all, however the number
is spelled. So the instants of two numbers stand in the order of the numbers, and a time claim that is out of the
window stays out of it when its number goes further, until it tells no instant any more.
-/

namespace WebToken

open Json (Number Value)

/-- The number that a JSON number is. -/
def Json.Number.value : Number → ℚ
  | whole number => number
  | float double => double.value

namespace Instant

variable {number old new : Number} {earlier later : Instant}

/-- Cutting the seconds of a double to what is counted makes no difference: what is cut cannot be told. -/
theorem bind_countDouble? (double : Double) : (countDouble? double).bind ofSeconds? = ofSeconds? double.floor := by
  unfold countDouble?
  by_cases counted : leastCount ≤ double.floor ∧ double.floor ≤ greatestCount
  · have cut : max leastCount (min greatestCount double.floor) = double.floor := by omega
    rw [if_neg (by simp only [greatestDouble]; omega), Option.bind_some, cut]
  · have untold : ofSeconds? double.floor = none := by
      rw [ofSeconds?_eq_none]
      simp only [leastCount, greatestCount, firstSecond, lastSecond] at counted ⊢
      omega
    split
    · rw [untold, Option.bind_none]
    · rw [untold, Option.bind_some, ofSeconds?_eq_none]
      simp only [leastCount, greatestCount, firstSecond, lastSecond] at counted ⊢
      omega

/-- A whole number that is not counted cannot be told, nor can the double nearest to it. -/
theorem bind_ofWhole? {number : Int} (uncounted : ¬(leastCount ≤ number ∧ number ≤ greatestCount)) :
    ((Double.ofWhole? number).bind countDouble?).bind ofSeconds? = ofSeconds? number := by
  have untold : ofSeconds? number = none := by
    rw [ofSeconds?_eq_none]
    simp only [leastCount, greatestCount, firstSecond, lastSecond] at uncounted ⊢
    omega
  rw [untold]
  cases rounded : Double.ofWhole? number with
  | none => rfl
  | some double =>
      have power : Nat.pow 2 63 = 9223372036854775808 := rfl
      rw [Option.bind_some, bind_countDouble?, ofSeconds?_eq_none]
      simp only [leastCount, greatestCount, firstSecond, lastSecond] at uncounted ⊢
      by_cases negative : number < 0
      · have below : number ≤ -((Nat.pow 2 63 : Nat) : Int) := by omega
        have floor := Double.floor_le_of_ofWhole? rounded below
        omega
      · have above : ((Nat.pow 2 63 : Nat) : Int) ≤ number := by omega
        have floor := Double.le_floor_of_ofWhole? rounded above
        omega

/-- A JSON number tells the instant at its whole seconds. -/
theorem ofValue?_number (number : Number) : ofValue? (.number number) = ofSeconds? ⌊number.value⌋ := by
  rw [ofValue?]
  cases number with
  | whole number =>
      rw [Number.value, Int.floor_intCast, count?]
      split
      case isTrue => rfl
      case isFalse uncounted => exact bind_ofWhole? uncounted
  | float double =>
      rw [Number.value, ← Double.floor_eq]
      exact bind_countDouble? double

/-- Numbers in an order tell instants in that order. -/
theorem le_of_ofValue? (told : ofValue? (.number old) = some earlier) (toldNew : ofValue? (.number new) = some later)
    (below : old.value ≤ new.value) : earlier.nanoseconds ≤ later.nanoseconds := by
  rw [ofValue?_number, ofSeconds?_eq_some] at told toldNew
  rw [told, toldNew]
  exact Int.mul_le_mul_of_nonneg_right (Int.floor_le_floor below) (by decide)

section Exact

variable {value : Value} {instant : Instant} {seconds : Int}

theorem ofValue?_eq_some : ofValue? value = some instant ↔
    ∃ number, value = .number number ∧ ofSeconds? ⌊number.value⌋ = some instant := by
  constructor
  · intro told
    cases value with
    | number number => exact ⟨number, rfl, ofValue?_number number ▸ told⟩
    | _ => cases told
  · rintro ⟨number, rfl, told⟩
    exact (ofValue?_number number).trans told

theorem ofValue?_eq_none :
    ofValue? value = none ↔ ∀ number, value = .number number → ofSeconds? ⌊number.value⌋ = none := by
  constructor
  · rintro untold number rfl
    exact (ofValue?_number number).symm.trans untold
  · intro untold
    cases value with
    | number number => exact (ofValue?_number number).trans (untold number rfl)
    | _ => rfl

theorem ofSeconds?_eq_some_iff : ofSeconds? seconds = some instant ↔
    (firstSecond ≤ seconds ∧ seconds ≤ lastSecond) ∧ instant.nanoseconds = seconds * nanosecondsPerSecond := by
  rw [← ofSeconds?_eq_some]
  refine ⟨fun told => ⟨?_, told⟩, And.right⟩
  by_contra beyond
  rw [ofSeconds?_eq_none.mpr beyond] at told
  cases told

theorem secondsOf?_eq_some : StandardClaims.secondsOf? value = some seconds ↔
    ∃ number, value = .number number ∧ ⌊number.value⌋ = seconds ∧ firstSecond ≤ seconds ∧ seconds ≤ lastSecond := by
  rw [StandardClaims.secondsOf?, Option.map_eq_some_iff]
  constructor
  · rintro ⟨instant, told, rfl⟩
    obtain ⟨number, rfl, whole⟩ := ofValue?_eq_some.mp told
    rw [seconds_of_ofSeconds? whole]
    exact ⟨number, rfl, rfl, (ofSeconds?_eq_some_iff.mp whole).1⟩
  · rintro ⟨number, rfl, rfl, within⟩
    cases told : ofSeconds? ⌊number.value⌋ with
    | none => exact absurd within (ofSeconds?_eq_none.mp told)
    | some instant => exact ⟨instant, (ofValue?_number number).trans told, seconds_of_ofSeconds? told⟩

/-- Numbers that 64 bits with a sign do not count, and the two that they end with, tell no instant. -/
theorem ofSeconds?_floor_eq_none (beyond : number.value ≤ -9223372036854775808 ∨ 9223372036854775807 ≤ number.value) :
    ofSeconds? ⌊number.value⌋ = none := by
  rw [ofSeconds?_eq_none]
  simp only [firstSecond, lastSecond]
  rcases beyond with below | above
  · have floor : ⌊number.value⌋ ≤ -9223372036854775808 := by exact_mod_cast (Int.floor_le number.value).trans below
    omega
  · have floor : 9223372036854775807 ≤ ⌊number.value⌋ := Int.le_floor.mpr (by exact_mod_cast above)
    omega

/-- What a JSON value tells exactly: an instant if it is a number whose floor is a second that can be told, whether it
is a whole number or a double, and nothing otherwise. -/
structure Exact (value : Value) : Prop where
  told : ∀ instant, ofValue? value = some instant ↔ ∃ number, value = .number number ∧
    (-8334601228800 ≤ ⌊number.value⌋ ∧ ⌊number.value⌋ ≤ 8210266876799) ∧
    instant.nanoseconds = ⌊number.value⌋ * 1000000000
  untold : ofValue? value = none ↔ ∀ number, value = .number number →
    ¬(-8334601228800 ≤ ⌊number.value⌋ ∧ ⌊number.value⌋ ≤ 8210266876799)
  /-- Nothing is cut to a bound: a number at the ends of what 64 bits count, or beyond them, tells nothing. -/
  uncut : ∀ number, value = .number number →
    number.value ≤ -9223372036854775808 ∨ 9223372036854775807 ≤ number.value → ofValue? value = none
  /-- What is kept as seconds is the floor. -/
  seconds : ∀ seconds, StandardClaims.secondsOf? value = some seconds ↔ ∃ number, value = .number number ∧
    ⌊number.value⌋ = seconds ∧ -8334601228800 ≤ seconds ∧ seconds ≤ 8210266876799
  restored : (StandardClaims.secondsOf? value).bind ofSeconds? = ofValue? value
  whole : ∀ whole : Int, (Number.whole whole).value = whole
  float : ∀ double, (Number.float double).value =
    (if double.negative then -1 else 1) * double.mantissa * (2 : ℚ) ^ ((double.shift : ℤ) - 1074)

theorem ofValue?_exact (value : Value) : Exact value := by
  constructor
  case told =>
      intro instant
      simp only [ofValue?_eq_some, ofSeconds?_eq_some_iff]
      rfl
  case untold =>
      simp only [ofValue?_eq_none, ofSeconds?_eq_none]
      rfl
  case uncut =>
      rintro number rfl beyond
      rw [ofValue?_number, ofSeconds?_floor_eq_none beyond]
  case seconds => exact fun seconds => secondsOf?_eq_some
  case restored => exact ofSeconds?_of_secondsOf? value
  case whole => exact fun whole => rfl
  case float => exact Double.value_eq_mantissa

end Exact

/-- Ten seconds and three quarters, half a second before the beginning of 1970, and the double that is taken for the
greatest count. -/
theorem ofValue?_exact_fractions :
    let late : Number := .float ⟨false, 0x4025800000000000⟩
    let early : Number := .float ⟨true, 0x3FE0000000000000⟩
    let distant : Number := .float ⟨false, 0x43E0000000000000⟩
    ofValue? (.number late) = some ⟨10000000000, by decide⟩ ∧
      ofValue? (.number early) = some ⟨-1000000000, by decide⟩ ∧
      StandardClaims.secondsOf? (.number early) = some (-1) ∧
      9223372036854775807 ≤ distant.value ∧ ofValue? (.number distant) = none ∧
      ofValue? (.number (.whole 18446744073709551615)) = none ∧ ofValue? (.string "10") = none := by
  intro late early distant
  have ten : ⌊late.value⌋ = 10 := by
    rw [Number.value, ← Double.floor_eq]
    decide +kernel
  have before : ⌊early.value⌋ = -1 := by
    rw [Number.value, ← Double.floor_eq]
    decide +kernel
  have power : ⌊distant.value⌋ = 9223372036854775808 := by
    rw [Number.value, ← Double.floor_eq]
    decide +kernel
  have beyond : 9223372036854775807 ≤ distant.value :=
    le_trans (by rw [power]; norm_num) (Int.floor_le distant.value)
  refine ⟨?late, ?early, ?seconds, beyond, ?distant, ?wide, ?text⟩
  case late =>
      refine ((ofValue?_exact _).told _).mpr ⟨late, rfl, ?_⟩
      rw [ten]
      exact ⟨by decide, rfl⟩
  case early =>
      refine ((ofValue?_exact _).told _).mpr ⟨early, rfl, ?_⟩
      rw [before]
      exact ⟨by decide, rfl⟩
  case seconds => exact ((ofValue?_exact _).seconds _).mpr ⟨early, rfl, before, by decide⟩
  case distant => exact (ofValue?_exact _).uncut distant rfl (Or.inr beyond)
  case wide => exact (ofValue?_exact _).uncut _ rfl (Or.inr (by norm_num [Number.value]))
  case text => exact (ofValue?_exact (.string "10")).untold.mpr nofun

end Instant

namespace Claim

/-- The claims that tell an instant. -/
def times : List String := ["exp", "iat", "nbf"]

variable {name : String}

theorem ofValue?_of_timed (timed : name ∈ times) (value : Value) :
    ofValue? name value = (Instant.ofValue? value).map time := by
  simp only [times, List.mem_cons, List.not_mem_nil, or_false] at timed
  rcases timed with rfl | rfl | rfl <;> rfl

theorem bind_time?_ofValue? (timed : name ∈ times) (value : Value) :
    (ofValue? name value).bind time? = Instant.ofValue? value := by
  rw [ofValue?_of_timed timed]
  cases Instant.ofValue? value <;> rfl

end Claim

namespace ClaimMap

variable {claims : ClaimMap} {name : String} {value : Value}

theorem time?_get (timed : name ∈ Claim.times) (present : claims.raw? name = some value) :
    claims.get.time? name = Instant.ofValue? value := by
  rw [ClaimView.time?, get, present, Option.bind_some, Claim.bind_time?_ofValue? timed]

theorem time?_insert (timed : name ∈ Claim.times) (other : String) :
    (claims.insert name value).get.time? other =
      if other = name then Instant.ofValue? value else claims.get.time? other := by
  rw [get_insert, ClaimView.time?, ClaimView.put, Function.update_apply]
  split
  · exact Claim.bind_time?_ofValue? timed value
  · rfl

end ClaimMap

namespace Rule

/-- A number that takes a time claim further out of the window than another one does, and the violation that it is. -/
inductive Further (old new : ℚ) : String → Violation → Prop
  | expiry (earlier : new ≤ old) : Further old new "exp" .expired
  | issue (later : old ≤ new) : Further old new "iat" .issuedInFuture
  | begin (later : old ≤ new) : Further old new "nbf" .usedTooSoon

theorem Further.timed {old new : ℚ} {name : String} {violation : Violation}
    (further : Further old new name violation) : name ∈ Claim.times := by
  cases further <;> decide

variable {clock now : Instant} {leeway : Duration} {claims : ClaimMap} {old new : Number} {name : String}
  {violation : Violation} {tolerance : Int}

theorem firstUnmet_insert {instant : Instant} (present : claims.raw? name = some (.number old))
    (further : Further old.value new.value name violation) (told : Instant.ofValue? (.number new) = some instant)
    (unmet : FirstUnmet (timeDemands tolerance now claims.get) violation) :
    FirstUnmet (timeDemands tolerance now (claims.insert name (.number new)).get) violation := by
  have known := ClaimMap.time?_get further.timed present
  have replaced (other : String) :
      (claims.insert name (.number new)).get.time? other =
        if other = name then some instant else claims.get.time? other :=
    told ▸ ClaimMap.time?_insert further.timed other
  cases further with
  | expiry earlier =>
      obtain ⟨exp, shown, late⟩ := firstUnmet_expired.mp unmet
      have order := Instant.le_of_ofValue? told (known ▸ shown) earlier
      exact firstUnmet_expired.mpr ⟨instant, replaced "exp", by omega⟩
  | issue later =>
      obtain ⟨current, iat, shown, late⟩ := firstUnmet_issuedInFuture.mp unmet
      have order := Instant.le_of_ofValue? (known ▸ shown) told later
      refine firstUnmet_issuedInFuture.mpr ⟨?_, instant, replaced "iat", by omega⟩
      exact fun exp told => current exp ((replaced "exp").symm.trans told)
  | begin later =>
      obtain ⟨current, issued, nbf, shown, late⟩ := firstUnmet_usedTooSoon.mp unmet
      have order := Instant.le_of_ofValue? (known ▸ shown) told later
      refine firstUnmet_usedTooSoon.mpr ⟨?_, ?_, instant, replaced "nbf", by omega⟩
      · exact fun exp told => current exp ((replaced "exp").symm.trans told)
      · exact fun iat told => issued iat ((replaced "iat").symm.trans told)

/-- A time claim stays out of the window when its number goes further out, as long as the number tells an instant:
the verdict is the same. A number that tells none is an absent claim, so that the other claims decide. -/
theorem window_rejects_further (clock now : Instant) (leeway : Duration) (claims : ClaimMap) (new : Number) :
    (Instant.firstSecond ≤ ⌊new.value⌋ → ⌊new.value⌋ ≤ Instant.lastSecond →
      ∀ name violation old, claims.raw? name = some (.number old) → Further old.value new.value name violation →
        check clock claims.get (.window leeway (some now)) = .error violation →
          check clock (claims.insert name (.number new)).get (.window leeway (some now)) = .error violation) ∧
    (¬(Instant.firstSecond ≤ ⌊new.value⌋ ∧ ⌊new.value⌋ ≤ Instant.lastSecond) → ∀ name ∈ Claim.times,
      check clock (claims.insert name (.number new)).get (.window leeway (some now)) =
        check clock (Function.update claims.get name none) (.window leeway (some now))) := by
  constructor
  · intro least most name violation old present further rejected
    cases told : Instant.ofValue? (.number new) with
    | none =>
        rw [Instant.ofValue?_number, Instant.ofSeconds?_eq_none] at told
        exact absurd ⟨least, most⟩ told
    | some instant =>
        have unmet := ((decides_window clock now leeway claims.get).refuses violation).mp rejected
        refine ((decides_window clock now leeway _).refuses violation).mpr ?_
        exact firstUnmet_insert present further told unmet
  · intro beyond name timed
    have untold : Instant.ofValue? (.number new) = none := by
      rw [Instant.ofValue?_number, Instant.ofSeconds?_eq_none]
      exact beyond
    rw [ClaimMap.get_insert, ClaimView.put, Claim.ofValue?_of_timed timed, untold, Option.map_none]

/-- Claims that expire two seconds after the beginning of 1970. -/
def claimsExpiringAtTwo : ClaimMap := ClaimMap.empty.insert "exp" (.number (.whole 2))

theorem window_rejects_further_fraction :
    let third : Instant := ⟨3000000000, by decide⟩
    let half : Number := .float ⟨false, 0x3FF8000000000000⟩
    let distant : Number := .whole (-8334601228801)
    ⌊half.value⌋ = 1 ∧ half.value ≤ (Number.whole 2).value ∧
      check third claimsExpiringAtTwo.get (.window 0 (some third)) = .error .expired ∧
      check third (claimsExpiringAtTwo.insert "exp" (.number half)).get (.window 0 (some third)) = .error .expired ∧
      ¬(Instant.firstSecond ≤ ⌊distant.value⌋ ∧ ⌊distant.value⌋ ≤ Instant.lastSecond) ∧
      check third (claimsExpiringAtTwo.insert "exp" (.number distant)).get (.window 0 (some third)) =
        check third (Function.update claimsExpiringAtTwo.get "exp" none) (.window 0 (some third)) := by
  intro third half distant
  have whole : ⌊half.value⌋ = 1 := by
    rw [Number.value, ← Double.floor_eq]
    decide +kernel
  have earlier : half.value ≤ (Number.whole 2).value := by
    have below := Int.lt_floor_add_one half.value
    rw [whole] at below
    exact le_of_lt (lt_of_lt_of_eq below (by norm_num [Number.value]))
  have expired : check third claimsExpiringAtTwo.get (.window 0 (some third)) = .error .expired := by decide +kernel
  have beyond : ¬(Instant.firstSecond ≤ ⌊distant.value⌋ ∧ ⌊distant.value⌋ ≤ Instant.lastSecond) := by
    rw [Number.value, Int.floor_intCast]
    decide
  obtain ⟨within, -⟩ := window_rejects_further third third 0 claimsExpiringAtTwo half
  obtain ⟨-, without⟩ := window_rejects_further third third 0 claimsExpiringAtTwo distant
  have least : Instant.firstSecond ≤ ⌊half.value⌋ := by
    rw [whole]
    decide
  have most : ⌊half.value⌋ ≤ Instant.lastSecond := by
    rw [whole]
    decide
  have still := within least most "exp" .expired (.whole 2) rfl (.expiry earlier) expired
  exact ⟨whole, earlier, expired, still, beyond, without beyond "exp" (by decide)⟩

/-- A token that has expired is let through when its expiry goes further back than the first instant that can be
told, and one that is not to be used yet when its beginning goes behind the last. -/
theorem window_accepts_distant :
    let third : Instant := ⟨3000000000, by decide⟩
    let early : ClaimMap := ClaimMap.empty.insert "nbf" (.number (.whole 4))
    check third claimsExpiringAtTwo.get (.window 0 (some third)) = .error .expired ∧
      (Number.whole (-8334601228801)).value < (Number.whole 2).value ∧
      check third (claimsExpiringAtTwo.insert "exp" (.number (.whole (-8334601228801)))).get
        (.window 0 (some third)) = .ok () ∧
      check third early.get (.window 0 (some third)) = .error .usedTooSoon ∧
      (Number.whole 4).value < (Number.whole 8210266876800).value ∧
      check third (early.insert "nbf" (.number (.whole 8210266876800))).get (.window 0 (some third)) = .ok () := by
  have earlier : (Number.whole (-8334601228801)).value < (Number.whole 2).value := by norm_num [Number.value]
  have later : (Number.whole 4).value < (Number.whole 8210266876800).value := by norm_num [Number.value]
  refine ⟨?expired, earlier, ?revived, ?soon, later, ?usable⟩
  case expired => decide +kernel
  case revived => decide +kernel
  case soon => decide +kernel
  case usable => decide +kernel

end Rule

end WebToken
