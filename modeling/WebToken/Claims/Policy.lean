import WebToken.Claims.Rule
import WebToken.Json.Document
import WebToken.Json.Record

/-!
Policies: what a protected resource asks of the claims of an access token, as a JSON document. Empty
texts and lists switch their rule off; the time claims are always checked.
-/

namespace WebToken

structure ClaimPolicy where
  issuer : String := ""
  audience : List String := []
  subject : String := ""
  scopes : List String := []
  /-- In seconds. -/
  leeway : Int := 0
  requireId : Bool := false
  deriving DecidableEq, Repr

namespace ClaimPolicy

open Json (Member Node)

def fields : List (Member ClaimPolicy) :=
  [.of "issuer" .defaulted Node.text fun value policy => { policy with issuer := value },
    .of "audience" .defaulted (Node.list Node.text) fun value policy =>
      { policy with audience := value },
    .of "subject" .defaulted Node.text fun value policy => { policy with subject := value },
    .of "scopes" .defaulted (Node.list Node.text) fun value policy => { policy with scopes := value },
    .of "leeway" .defaulted (Node.wholeBetween (-(Nat.pow 2 63)) (Nat.pow 2 63 - 1)) fun value policy =>
      { policy with leeway := value },
    .of "require_jti" .defaulted Node.flag fun value policy => { policy with requireId := value }]

def read (node : Node) : Except Json.Fault ClaimPolicy :=
  Json.Record.read fields Json.Record.skipOther {} node

def ofText (text : String) : Except Json.Fault ClaimPolicy := Json.read read (Bytes.ofText text)

def toText (policy : ClaimPolicy) : String :=
  let texts (values : List String) := Json.Text.list (values.map Json.Text.quote)
  String.ofList (Json.Text.members [
    ("issuer", Json.Text.quote policy.issuer), ("audience", texts policy.audience),
    ("subject", Json.Text.quote policy.subject), ("scopes", texts policy.scopes),
    ("leeway", Json.Text.whole policy.leeway),
    ("require_jti", (Json.Value.bool policy.requireId).write)])

/-- The leeway of the time rule. One too long to be counted is the longest duration. -/
def tolerance (policy : ClaimPolicy) : Duration := (Duration.ofSeconds? policy.leeway).getD .longest

/-- The rules of a policy in their order: issuer, time, audience, subject, scopes, identifier. -/
def rules (policy : ClaimPolicy) : List Rule :=
  (if policy.issuer.isEmpty then [] else [.issuer policy.issuer]) ++
    [.window policy.tolerance none] ++
    (if policy.audience.isEmpty then [] else [.audience policy.audience]) ++
    (if policy.subject.isEmpty then [] else [.subject [policy.subject]]) ++
    (if policy.scopes.isEmpty then [] else [.scopes policy.scopes]) ++
    (if policy.requireId then [.tokenId] else [])

def toValidator (policy : ClaimPolicy) : Validator := ⟨policy.rules⟩

end ClaimPolicy

end WebToken
