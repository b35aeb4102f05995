import WebToken.Header
import WebToken.KeyManagement
import WebToken.Text.Segment

/-!
Encrypted tokens: five segments with dots between them, of which the first is the protected header.
Its text as received is what the content encryption authenticates.
-/

namespace WebToken

structure Jwe where
  header : Header
  /-- The first segment as received. -/
  protectedText : String
  encryptedKey : Bytes
  content : Sealed
  deriving DecidableEq, Repr

namespace Jwe

def headerOf (algorithm : KeyAlgorithm) (encryption : ContentEncryption) (key : Key)
    (delivery : Delivery) (contentType : Option String) : Header :=
  { Header.ofKey algorithm.name key.id with
    enc := some encryption.name
    cty := contentType
    epk := delivery.ephemeral.map Jwk.ofMaterial
    iv := delivery.iv.map Base64Url.encode
    tag := delivery.tag.map Base64Url.encode
    p2s := delivery.salt.map Base64Url.encode
    p2c := delivery.iterations }

def encryptCompact (algorithm : KeyAlgorithm) (encryption : ContentEncryption) (key : Key)
    (draws : Draws) (plaintext : Bytes) (contentType : Option String) : Except Error String := do
  let delivery ← KeyManagement.deliver algorithm encryption key draws
  let protectedText := (headerOf algorithm encryption key delivery contentType).encode
  let content ← encryption.sealContent draws delivery.contentKey (Bytes.ofText protectedText) plaintext
  return Text.joinDotted
    [protectedText, Base64Url.encode delivery.encryptedKey, Base64Url.encode content.iv,
      Base64Url.encode content.ciphertext, Base64Url.encode content.tag]

def parse (text : String) : Except TokenFlaw Jwe :=
  match Text.dotted (Text.trim text) with
  | [protectedText, encryptedKey, iv, ciphertext, tag] => do
      let header ← Header.decode protectedText
      if header.enc.isNone then throw .noContentEncryption
      let encryptedKey ← partBytes "encrypted key" encryptedKey
      let iv ← partBytes "iv" iv
      let ciphertext ← partBytes "ciphertext" ciphertext
      let tag ← partBytes "authentication tag" tag
      return ⟨header, protectedText, encryptedKey, ⟨iv, ciphertext, tag⟩⟩
  | _ => .error .encryptedSegments

def optionalPart (name : String) (text : Option String) : Except TokenFlaw (Option Bytes) :=
  match text with
  | none => .ok none
  | some text => some <$> partBytes name text

def keyParameters (header : Header) : Except TokenFlaw KeyParameters := do
  let sender ← optionalPart "apu" header.apu
  let recipient ← optionalPart "apv" header.apv
  let iv ← optionalPart "iv" header.iv
  let tag ← optionalPart "tag" header.tag
  let salt ← optionalPart "p2s" header.p2s
  return {
    ephemeral := header.epk
    sender := sender.getD []
    recipient := recipient.getD []
    iv, tag, salt
    iterations := header.p2c }

def decrypt (jwe : Jwe) (key : Key) (draws : Draws) : Except Error Bytes := do
  let algorithm ← require (.unsupportedAlgorithm jwe.header.alg) (KeyAlgorithm.ofName? jwe.header.alg)
  let name := jwe.header.enc.getD ""
  let encryption ← require (.unsupportedAlgorithm name) (ContentEncryption.ofName? name)
  let parameters ← (keyParameters jwe.header).mapError .invalidToken
  let contentKey ← KeyManagement.recover algorithm encryption key draws jwe.encryptedKey parameters
  encryption.openContent contentKey (Bytes.ofText jwe.protectedText) jwe.content

end Jwe

end WebToken
