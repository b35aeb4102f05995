import WebToken.Jwe
import WebToken.Jws
import WebToken.Key.Source
import WebToken.Token.Payload

/-!
Making tokens: sign, then encrypt. Both keys are looked up before any cryptography.
-/

namespace WebToken.Token

/-- The media type of a content that is itself a token. -/
def nestedContentType : String := "JWT"

/-- Signs bytes with what a source gave, if it gave an algorithm; also whether it did. -/
def signStage (resolved : ResolvedKey) (draws : Draws) (bytes : Bytes) : Except Error (Bytes × Bool) :=
  match resolved.suite.signature with
  | none => .ok (bytes, false)
  | some algorithm => do
      let key ← require .noSigningKey resolved.key
      let token ← Jws.signCompact algorithm key draws bytes
      return (Bytes.ofText token, true)

/-- Encrypts bytes with what a source gave, if it gave both algorithms. -/
def encryptStage (resolved : ResolvedKey) (draws : Draws) (bytes : Bytes) (signed : Bool) :
    Except Error Bytes :=
  match resolved.suite.keyManagement, resolved.suite.content with
  | some algorithm, some encryption => do
      let key ← require .noEncryptionKey resolved.key
      let contentType := if signed then some nestedContentType else none
      let token ← Jwe.encryptCompact algorithm encryption key.toPublic draws bytes contentType
      return Bytes.ofText token
  | _, _ => .ok bytes

/-- Makes a token of bytes, with sources that are each asked in their own second. With both stages skipped the bytes
stay as they are. -/
def encodeBytes (signing encryption : KeySource) (seconds : Seconds) (draws : Draws) (bytes : Bytes) :
    Except Error Bytes := do
  let signing ← require .noSigningKey (signing.resolve seconds.signature)
  let encryption ← require .noEncryptionKey (encryption.resolve seconds.encryption)
  let (bytes, signed) ← signStage signing draws bytes
  encryptStage encryption draws bytes signed

def encode (signing encryption : KeySource) (seconds : Seconds) (draws : Draws) (payload : Payload) :
    Except Error Bytes :=
  encodeBytes signing encryption seconds draws payload.toBytes

def encodeText (signing encryption : KeySource) (seconds : Seconds) (draws : Draws) (payload : Payload) :
    Except Error String := do
  let bytes ← encode signing encryption seconds draws payload
  (Utf8.decode bytes).mapError fun flaw => .invalidToken (.outputNotUtf8 flaw)

end WebToken.Token
