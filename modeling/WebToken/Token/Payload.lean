import WebToken.Claims.Map
import WebToken.Claims.Standard

/-!
Payloads: what the bytes of a token are made from. Text and bytes are taken as they are; values and
claims are written as JSON.
-/

namespace WebToken

inductive Payload
  | text (text : String)
  | bytes (bytes : Bytes)
  | value (value : Json.Value)
  | claims (claims : ClaimMap)
  | standard (claims : StandardClaims)

def Payload.toBytes : Payload → Bytes
  | text content => Bytes.ofText content
  | bytes content => content
  | value content => Bytes.ofText content.toText
  | claims content => Bytes.ofText content.toValue.toText
  | standard content => Bytes.ofText content.toText

end WebToken
