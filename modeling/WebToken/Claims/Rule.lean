import WebToken.Claims.Value
import WebToken.Text.Segment

/-!
Rules that claims must satisfy, and lists of them. The first rule that is violated decides.
-/

namespace WebToken

inductive Violation
  | absentId
  | subject
  | audience
  | issuer
  | expired
  | issuedInFuture
  | usedTooSoon
  | scope
  | custom (reason : String)
  deriving DecidableEq, Repr

def Violation.message : Violation → String
  | absentId => "jti claim is absent"
  | subject => "sub claim is invalid"
  | audience => "aud claim is invalid"
  | issuer => "iss claim is invalid"
  | expired => "exp claim is invalid because token has expired"
  | issuedInFuture => "iat claim is invalid because token is issued in future"
  | usedTooSoon => "nbf claim is invalid because token is used too soon"
  | scope => "insufficient scope"
  | custom reason => s!"claim rule failed: {reason}"

inductive Rule
  | tokenId
  | subject (allowed : List String)
  | audience (expected : List String)
  | issuer (expected : String)
  | scopes (required : List String)
  /-- The time claims hold at an instant, or now, give or take a leeway. -/
  | window (leeway : Duration) (instant : Option Instant)
  | custom (check : ClaimView → Except Violation Unit)

namespace Rule

def require (condition : Bool) (violation : Violation) : Except Violation Unit :=
  if condition then .ok () else .error violation

/-- Whether an instant is later than another one by more than a leeway. Where the end of the leeway cannot be
told, no instant is. -/
def isAfter (leeway : Duration) (instant base : Instant) : Bool :=
  (base.add? leeway.magnitude).any fun limit => limit.nanoseconds < instant.nanoseconds

/-- Checks the time claims that are present: expiry, time of issue, begin. -/
def checkWindow (leeway : Duration) (instant : Instant) (claims : ClaimView) : Except Violation Unit := do
  require (!(claims.time? "exp").any fun exp => isAfter leeway instant exp) .expired
  require (!(claims.time? "iat").any fun iat => isAfter leeway iat instant) .issuedInFuture
  require (!(claims.time? "nbf").any fun nbf => isAfter leeway nbf instant) .usedTooSoon

def granted (claims : ClaimView) : List String :=
  match claims.text? "scope" with
  | some text => Text.words text
  | none => []

def check (clock : Instant) (claims : ClaimView) : Rule → Except Violation Unit
  | tokenId => require ((claims.text? "jti").any (!·.isEmpty)) .absentId
  | subject allowed => require ((claims.text? "sub").any allowed.contains) .subject
  | audience expected =>
      require ((claims.audience? "aud").any fun audiences => expected.all audiences.contains) .audience
  | issuer expected => require (claims.text? "iss" == some expected) .issuer
  | scopes required => require (required.all (granted claims).contains) .scope
  | window leeway instant => checkWindow leeway (instant.getD clock) claims
  | custom check => check claims

def checkAll (clock : Instant) (rules : List Rule) (claims : ClaimView) : Except Violation Unit :=
  rules.forM fun rule => rule.check clock claims

end Rule

structure Validator where
  rules : List Rule := []

namespace Validator

def withRule (validator : Validator) (rule : Rule) : Validator := ⟨validator.rules ++ [rule]⟩

def size (validator : Validator) : Nat := validator.rules.length

def isEmpty (validator : Validator) : Bool := validator.rules.isEmpty

def validateRules (clock : Instant) (claims : ClaimView) : List Rule → Except Violation Unit
  | [] => .ok ()
  | rule :: rest =>
      match rule.check clock claims with
      | .ok () => validateRules clock claims rest
      | .error violation => .error violation

def validate (clock : Instant) (validator : Validator) (claims : ClaimView) : Except Violation Unit :=
  validateRules clock claims validator.rules

end Validator

end WebToken
