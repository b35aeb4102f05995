import WebToken.Claims.Value
import WebToken.Json.Document
import WebToken.Json.Record

/-!
Claims with a schema: the registered claims by their types and all others as values. Times are whole
seconds, and a time or an audience that cannot be coerced counts as absent.
-/

namespace WebToken

structure StandardClaims where
  jti : Option String := none
  sub : Option String := none
  iss : Option String := none
  aud : Option (List String) := none
  exp : Option Int := none
  nbf : Option Int := none
  iat : Option Int := none
  scope : Option String := none
  extra : Table Json.Value := .empty
  deriving Repr

namespace StandardClaims

open Json (Member Node Value)

def secondsOf? (value : Value) : Option Int := (Instant.ofValue? value).map Instant.seconds

def readInner (node : Node) : Except Json.Fault Value := node.value (Node.maxDepth - 1)

def fields : List (Member StandardClaims) :=
  [.of "jti" .optional (Node.optional Node.text) fun value claims => { claims with jti := value },
    .of "sub" .optional (Node.optional Node.text) fun value claims => { claims with sub := value },
    .of "iss" .optional (Node.optional Node.text) fun value claims => { claims with iss := value },
    .of "aud" .defaulted readInner fun value claims =>
      { claims with aud := Claim.audiencesOf? value },
    .of "exp" .defaulted readInner fun value claims => { claims with exp := secondsOf? value },
    .of "nbf" .defaulted readInner fun value claims => { claims with nbf := secondsOf? value },
    .of "iat" .defaulted readInner fun value claims => { claims with iat := secondsOf? value },
    .of "scope" .optional (Node.optional Node.text) fun value claims =>
      { claims with scope := value }]

def readExtra (name : String) (node : Node) : Except Json.Fault (StandardClaims → StandardClaims) :=
  (fun value claims => { claims with extra := claims.extra.insert name value }) <$> readInner node

def read : Node → Except Json.Fault StandardClaims
  | .object members ending => Json.Record.ofMembers fields readExtra {} members ending
  | node => .error node.refusal

def ofBytes (bytes : Bytes) : Except Json.Fault StandardClaims := Json.read read bytes

/-- The audiences as a value: a single one stands alone. -/
def audienceValue : List String → Value
  | [audience] => .string audience
  | audiences => .array (audiences.map .string)

def entries (claims : StandardClaims) : List (String × Value) :=
  let text (value : Option String) := value.map Value.string
  let seconds (value : Option Int) := value.map fun seconds => Value.number (.whole seconds)
  ([("jti", text claims.jti), ("sub", text claims.sub), ("iss", text claims.iss),
    ("aud", claims.aud.map audienceValue), ("exp", seconds claims.exp), ("nbf", seconds claims.nbf),
    ("iat", seconds claims.iat), ("scope", text claims.scope)].filterMap fun member =>
      member.2.map fun value => (member.1, value)) ++ claims.extra.entries

def toText (claims : StandardClaims) : String :=
  String.ofList (Json.Text.members (Value.writeMembers claims.entries))

def toValue (claims : StandardClaims) : Value := .object (Table.ofEntries claims.entries).entries

/-- The text of a member that may be null or missing; none if it is something else. -/
def textMember? (members : Table Value) (name : String) : Option (Option String) :=
  match members.find? name with
  | none => some none
  | some .null => some none
  | some (.string text) => some (some text)
  | some _ => none

/-- The claims that a value holds, none if it is not an object or a text has another type. -/
def ofValue? : Value → Option StandardClaims
  | .object listed => do
      let members := Table.ofEntries listed
      let jti ← textMember? members "jti"
      let sub ← textMember? members "sub"
      let iss ← textMember? members "iss"
      let scope ← textMember? members "scope"
      let seconds (name : String) : Option Int := (members.find? name).bind secondsOf?
      return {
        jti, sub, iss, scope
        aud := (members.find? "aud").bind Claim.audiencesOf?
        exp := seconds "exp"
        nbf := seconds "nbf"
        iat := seconds "iat"
        extra := members.filter fun member => !fields.any (·.name == member.1) }
  | _ => none

def get (claims : StandardClaims) : ClaimView := fun name =>
  let time (seconds : Option Int) := (seconds.bind Instant.ofSeconds?).map Claim.time
  if name = "jti" then claims.jti.map .text
  else if name = "sub" then claims.sub.map .text
  else if name = "iss" then claims.iss.map .text
  else if name = "aud" then claims.aud.map .audience
  else if name = "exp" then time claims.exp
  else if name = "nbf" then time claims.nbf
  else if name = "iat" then time claims.iat
  else if name = "scope" then claims.scope.map fun scope => .other (.string scope)
  else (claims.extra.find? name).bind (Claim.ofValue? name)

end StandardClaims

end WebToken
