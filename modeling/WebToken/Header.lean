import WebToken.Key.Jwk

/-!
The headers of tokens. A protected header travels as the base64url text of a JSON document. No
extension is understood, so a header that calls any extension critical is refused.
-/

namespace WebToken

def partBytes (name text : String) : Except TokenFlaw Bytes :=
  require (.notBase64 name) (Base64Url.decode? text)

/-- The members of a header that are read or written. -/
structure Header where
  /-- The algorithm of the signature or of the key management. -/
  alg : String := ""
  /-- The content encryption. -/
  enc : Option String := none
  /-- The identifier of the key. -/
  kid : Option String := none
  /-- The media type of the token. -/
  typ : Option String := none
  /-- The media type of the content. -/
  cty : Option String := none
  /-- The ephemeral public key of an agreement. -/
  epk : Option Jwk := none
  /-- What is known of the sender in an agreement. -/
  apu : Option String := none
  /-- What is known of the recipient in an agreement. -/
  apv : Option String := none
  /-- The initialization vector of an encrypted content key. -/
  iv : Option String := none
  /-- The tag of an encrypted content key. -/
  tag : Option String := none
  /-- The salt of a stretched password. -/
  p2s : Option String := none
  /-- The repetitions of a stretched password. -/
  p2c : Option Nat := none
  /-- The extensions that must be understood. -/
  crit : Option (List String) := none
  deriving DecidableEq, Repr

namespace Header

open Json (Member Node)

/-- The header that names an algorithm and a key, if the key has an identifier. -/
def ofKey (algorithm id : String) : Header :=
  { alg := algorithm, kid := if id.isEmpty then none else some id }

/-- The identifier of the key, none if it is empty. -/
def keyId? (header : Header) : Option String := header.kid.filter (!·.isEmpty)

private def headerText (name : String) (put : Option String → Header → Header) : Member Header :=
  .of name .optional (Node.optional Node.text) put

def readCount (node : Node) : Except Json.Fault Nat :=
  Int.toNat <$> node.wholeBetween 0 (Nat.pow 2 32 - 1)

def fields (readJwk : Node → Except Json.Fault Jwk) : List (Member Header) :=
  [.of "alg" .defaulted Node.text fun value header => { header with alg := value },
    headerText "enc" fun value header => { header with enc := value },
    headerText "kid" fun value header => { header with kid := value },
    headerText "typ" fun value header => { header with typ := value },
    headerText "cty" fun value header => { header with cty := value },
    .of "epk" .optional (Node.optional readJwk) fun value header => { header with epk := value },
    headerText "apu" fun value header => { header with apu := value },
    headerText "apv" fun value header => { header with apv := value },
    headerText "iv" fun value header => { header with iv := value },
    headerText "tag" fun value header => { header with tag := value },
    headerText "p2s" fun value header => { header with p2s := value },
    .of "p2c" .optional (Node.optional readCount) fun value header => { header with p2c := value },
    .of "crit" .optional (Node.optional (Node.list Node.text)) fun value header =>
      { header with crit := value }]

def readWith (readJwk : Node → Except Json.Fault Jwk) (node : Node) : Except Json.Fault Header :=
  Json.Record.read (fields readJwk) Json.Record.skipOther {} node

def read (node : Node) : Except Json.Fault Header := readWith Jwk.read node

def ofText (text : String) : Except Json.Fault Header := Json.read read (Bytes.ofText text)

def entries (header : Header) : List (String × List Char) :=
  let text (value : Option String) := value.map Json.Text.quote
  [("alg", some (Json.Text.quote header.alg)), ("enc", text header.enc), ("kid", text header.kid),
    ("typ", text header.typ), ("cty", text header.cty), ("epk", header.epk.map Jwk.write),
    ("apu", text header.apu), ("apv", text header.apv), ("iv", text header.iv),
    ("tag", text header.tag), ("p2s", text header.p2s),
    ("p2c", header.p2c.map fun (count : Nat) => Json.Text.whole count),
    ("crit", header.crit.map fun names =>
      Json.Text.list (names.map Json.Text.quote))].filterMap fun member =>
        member.2.map fun value => (member.1, value)

def toText (header : Header) : String := String.ofList (Json.Text.members header.entries)

def encode (header : Header) : String := Base64Url.encode (Bytes.ofText header.toText)

def checkCritical (header : Header) : Except TokenFlaw Unit :=
  match header.crit with
  | none => .ok ()
  | some names => .error (.critical names)

def decode (segment : String) : Except TokenFlaw Header := do
  let bytes ← require .headerNotBase64 (Base64Url.decode? segment)
  let header ← (Json.read read bytes).mapError fun _ => .headerNotObject
  header.checkCritical
  return header

/-- Fills up a protected header with the members of an unprotected one. An algorithm that is empty
counts as missing. -/
def merge (protectedHeader unprotectedHeader : Header) : Header :=
  { alg := if protectedHeader.alg.isEmpty then unprotectedHeader.alg else protectedHeader.alg
    enc := protectedHeader.enc <|> unprotectedHeader.enc
    kid := protectedHeader.kid <|> unprotectedHeader.kid
    typ := protectedHeader.typ <|> unprotectedHeader.typ
    cty := protectedHeader.cty <|> unprotectedHeader.cty
    epk := protectedHeader.epk <|> unprotectedHeader.epk
    apu := protectedHeader.apu <|> unprotectedHeader.apu
    apv := protectedHeader.apv <|> unprotectedHeader.apv
    iv := protectedHeader.iv <|> unprotectedHeader.iv
    tag := protectedHeader.tag <|> unprotectedHeader.tag
    p2s := protectedHeader.p2s <|> unprotectedHeader.p2s
    p2c := protectedHeader.p2c <|> unprotectedHeader.p2c
    crit := protectedHeader.crit }

end Header

end WebToken
