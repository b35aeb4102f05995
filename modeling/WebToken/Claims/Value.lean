import WebToken.Claims.Time
import WebToken.Json.Value

/-!
Claims: what a token says about its subject. The registered claims are coerced to the type that the
registry gives them, and one that cannot be coerced counts as absent.
-/

namespace WebToken

namespace Instant

/-- The least and the greatest number of seconds that is counted: those of 64 bits with a sign. -/
def leastCount : Int := -9223372036854775808

def greatestCount : Int := 9223372036854775807

/-- The double nearest to the greatest count, which is not the greatest count. -/
def greatestDouble : Int := greatestCount + 1

/-- The whole seconds of a double, cut to what is counted; none if the double is beyond those nearest to it. -/
def countDouble? (double : Double) : Option Int :=
  if double.floor < leastCount ∨ greatestDouble < double.floor then none
  else some (max leastCount (min greatestCount double.floor))

/-- The whole seconds of a JSON number. A whole number that is not counted is taken as the nearest double. -/
def count? : Json.Number → Option Int
  | .whole number =>
      if leastCount ≤ number ∧ number ≤ greatestCount then some number
      else (Double.ofWhole? number).bind countDouble?
  | .float double => countDouble? double

/-- The instant that a JSON number of seconds stands for; fractions of a second are dropped. -/
def ofValue? : Json.Value → Option Instant
  | .number number => (count? number).bind ofSeconds?
  | _ => none

end Instant

/-- A claim after coercion. -/
inductive Claim
  | text (text : String)
  | audience (audiences : List String)
  | time (instant : Instant)
  | other (value : Json.Value)
  deriving Repr

namespace Claim

def text? : Claim → Option String
  | text found => some found
  | other (.string found) => some found
  | _ => none

def audience? : Claim → Option (List String)
  | audience found => some found
  | _ => none

def time? : Claim → Option Instant
  | time found => some found
  | _ => none

/-- The audiences that a value names: one text, or a list of nothing but texts. -/
def audiencesOf? : Json.Value → Option (List String)
  | .string single => some [single]
  | .array items => items.mapM Json.Value.string?
  | _ => none

/-- The claim that a value is under a name. -/
def ofValue? (name : String) (value : Json.Value) : Option Claim :=
  if name = "jti" ∨ name = "sub" ∨ name = "iss" then value.string?.map text
  else if name = "aud" then (audiencesOf? value).map audience
  else if name = "exp" ∨ name = "nbf" ∨ name = "iat" then (Instant.ofValue? value).map time
  else
    match value with
    | .null => none
    | value => some (other value)

end Claim

/-- How rules see claims: each by its name, none if it is absent. -/
abbrev ClaimView := String → Option Claim

namespace ClaimView

def text? (view : ClaimView) (name : String) : Option String := (view name).bind Claim.text?

def audience? (view : ClaimView) (name : String) : Option (List String) := (view name).bind Claim.audience?

def time? (view : ClaimView) (name : String) : Option Instant := (view name).bind Claim.time?

end ClaimView

end WebToken
