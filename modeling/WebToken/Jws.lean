import WebToken.Header
import WebToken.Signature
import WebToken.Text.Segment

/-!
Signed tokens. A token is three segments with dots between them, or a JSON document with the same
parts; a document must carry exactly one signature. What is signed is the text of the first two
segments as received.
-/

namespace WebToken

structure Jws where
  /-- The members of both headers. -/
  header : Header
  signingInput : Bytes
  payload : Bytes
  signature : Bytes
  deriving DecidableEq, Repr

namespace Jws

open Json (Member Node Body Ending)

def inputText (protectedText payload : String) : String := protectedText ++ "." ++ payload

def signCompact (algorithm : SignatureAlgorithm) (key : Key) (draws : Draws) (payload : Bytes) :
    Except Error String := do
  let input := inputText (Header.ofKey algorithm.name key.id).encode (Base64Url.encode payload)
  let signature ← Signature.sign algorithm key draws (Bytes.ofText input)
  return input ++ "." ++ Base64Url.encode signature

/-- The header that a protected and an unprotected one make together. An empty protected header
leaves the unprotected one alone. -/
def mergedHeader (protectedText : String) (unprotectedHeader : Header) : Except TokenFlaw Header :=
  if protectedText.isEmpty then unprotectedHeader.checkCritical.map fun _ => unprotectedHeader
  else (Header.decode protectedText).map fun header => header.merge unprotectedHeader

def ofParts (protectedText : String) (unprotectedHeader : Header) (payload signature : String) :
    Except TokenFlaw Jws := do
  let header ← mergedHeader protectedText unprotectedHeader
  let payloadBytes ← partBytes "payload" payload
  let signatureBytes ← partBytes "signature" signature
  return ⟨header, Bytes.ofText (inputText protectedText payload), payloadBytes, signatureBytes⟩

def ofCompact (text : String) : Except TokenFlaw Jws :=
  match Text.dotted text with
  | [protectedText, payload, signature] => ofParts protectedText {} payload signature
  | _ => .error .signedSegments

structure Entry where
  protectedText : Option String := none
  unprotectedHeader : Option Header := none
  signature : String

def entryFields (readHeader : Node → Except Json.Fault Header) : List (Member Entry) :=
  [.of "protected" .defaulted (Node.optional Node.text) fun value entry =>
      { entry with protectedText := value },
    .of "header" .defaulted (Node.optional readHeader) fun value entry =>
      { entry with unprotectedHeader := value },
    .of "signature" .required Node.text fun value entry => { entry with signature := value }]

/-- A document: the payload, its list of signatures, and the members that belong to neither. -/
structure Document where
  payload : String := ""
  signatures : Option (List Entry) := none
  others : List (String × Node) := []

def documentFields : List (Member Document) :=
  [.of "payload" .required Node.text fun value document => { document with payload := value },
    .of "signatures" .defaulted
      (Node.optional (Node.list
        (Json.Record.read (entryFields Header.read) Json.Record.skipOther { signature := "" })))
      fun value document => { document with signatures := value }]

/-- Keeps a member that is not the document's own, which must be a sound value. -/
def keepOther : Json.Record.Other Document := fun name node =>
  (fun _ document => { document with others := (name, node) :: document.others }) <$>
    node.value (Node.maxDepth - 1)

def Document.read : Node → Except Json.Fault Document
  | .object members ending => Json.Record.ofMembers documentFields keepOther {} members ending
  | node => .error node.refusal

/-- The signature whose members stand beside the payload. If they do not make one there is none. -/
def Document.flatEntry? (document : Document) : Option Entry :=
  let members := document.others.reverse.map fun member =>
    (Json.Body.ofText member.1, member.2)
  let readHeader := Header.readWith (Jwk.readWith KeyUse.readSound)
  (Json.Record.ofMembers (entryFields readHeader) Json.Record.skipOther { signature := "" } members
    .closed).toOption

def Document.entry (document : Document) : Except TokenFlaw Entry :=
  match document.signatures, document.flatEntry? with
  | some [entry], _ => .ok entry
  | some entries, _ => .error (.signatureCount entries.length)
  | none, some entry => .ok entry
  | none, none => .error .noSignature

def ofDocument (text : String) : Except TokenFlaw Jws := do
  let document ← (Json.read Document.read (Bytes.ofText text)).mapError fun _ => .jsonMalformed
  let entry ← document.entry
  ofParts (entry.protectedText.getD "") (entry.unprotectedHeader.getD {}) document.payload entry.signature

/-- Whether a text is to be read as a document. -/
def looksLikeDocument (text : String) : Bool := text.toList.head? == some '{'

def parse (text : String) : Except TokenFlaw Jws :=
  let text := Text.trim text
  if looksLikeDocument text then ofDocument text else ofCompact text

def verify (jws : Jws) (key : Key) : Except Error Bytes := do
  let algorithm ← require (.unsupportedAlgorithm jws.header.alg)
    (SignatureAlgorithm.ofName? jws.header.alg)
  Signature.verify algorithm key jws.signingInput jws.signature
  return jws.payload

/-- Whether bytes look like a token of three segments: the first is a header that names an
algorithm. -/
def isCompact (bytes : Bytes) : Bool :=
  match Utf8.decode? bytes with
  | none => false
  | some text =>
      match Text.dotted text with
      | [protectedText, _, _] =>
          match Header.decode protectedText with
          | .ok header => !header.alg.isEmpty
          | .error _ => false
      | _ => false

end Jws

end WebToken
