import WebToken.Algorithm
import WebToken.Checked
import WebToken.Json.Document

/-!
Everything that can go wrong with a token or a key, by its cause, and the wording of each cause.
-/

namespace WebToken

inductive KeyFlaw
  | missingMember (type member : String)
  | notBase64 (type member : String)
  | unsupportedType (type : String)
  | unsupportedCurve (name : String)
  | rsaPublic (flaw : Rsa.KeyFlaw)
  | rsaPrivate (flaw : Rsa.KeyFlaw)
  | scalar (curve : Curve)
  | offCurve (curve : Curve)
  | coordinateLength (length : Nat)
  | edPublicLength
  | edPublic
  | edSeedLength
  | edMismatch
  | wrongType (type algorithm : String)
  | shortSecret (algorithm : String) (least length : Nat)
  | secretLength (algorithm : String) (expected length : Nat)
  | needs (algorithm what type : String)
  | emptyPassword (algorithm : String)
  | wrapLength
  | rsaSigning (failure : Rsa.Failure)
  | rsaEncryption (failure : Rsa.Failure)
  | ecdsaSigning
  | declaresNothing (id algorithm : String)
  deriving DecidableEq, Repr

def KeyFlaw.message : KeyFlaw → String
  | missingMember type member => s!"{type} key is missing '{member}'"
  | notBase64 type member => s!"{type} key member '{member}' is not base64url"
  | unsupportedType type => s!"unsupported key type '{type}'"
  | unsupportedCurve name => s!"unsupported curve '{name}'"
  | rsaPublic flaw => s!"invalid RSA public key: {flaw.message}"
  | rsaPrivate flaw => s!"invalid RSA private key: {flaw.message}"
  | scalar curve => s!"invalid {curve.name} private scalar"
  | offCurve curve => s!"{curve.name} point is not on the curve"
  | coordinateLength length => s!"EC coordinates must be {length} bytes"
  | edPublicLength => "Ed25519 public key must be 32 bytes"
  | edPublic => "invalid Ed25519 public key"
  | edSeedLength => "Ed25519 private key must be 32 bytes"
  | edMismatch => "Ed25519 'x' does not match 'd'"
  | wrongType type algorithm => s!"{type} key cannot be used with {algorithm}"
  | shortSecret algorithm least length =>
      s!"HMAC key for {algorithm} must be at least {least} bytes, got {length}"
  | secretLength algorithm expected length => s!"{algorithm} needs a {expected} byte key, got {length}"
  | needs algorithm what type => s!"{algorithm} needs {what}, got {type}"
  | emptyPassword algorithm => s!"{algorithm} needs a non-empty password"
  | wrapLength => "key data to wrap must be 64-bit blocks, at least two"
  | rsaSigning failure => s!"RSA signing failed: signature error: {failure.message}"
  | rsaEncryption failure => s!"RSA key encryption failed: {failure.message}"
  | ecdsaSigning => "ECDSA signing failed: signature error"
  | declaresNothing id algorithm => s!"key '{id}' declares no algorithm to check '{algorithm}' against"

inductive TokenFlaw
  | headerNotBase64
  | headerNotObject
  | critical (names : List String)
  | signedSegments
  | encryptedSegments
  | jsonMalformed
  | signatureCount (count : Nat)
  | noSignature
  | notBase64 (part : String)
  | noContentEncryption
  | directCarriesKey
  | agreementCarriesKey
  | noEphemeralKey
  | ephemeralKey
  | ephemeralCurve
  | noSealedKeyParameters (algorithm : String)
  | noPasswordParameters (algorithm : String)
  | shortSalt
  | iterations (count : Nat)
  | signedNotUtf8
  | outputNotUtf8 (flaw : Utf8.Flaw)
  deriving DecidableEq, Repr

def TokenFlaw.message : TokenFlaw → String
  | headerNotBase64 => "header is not base64url"
  | headerNotObject => "header is not a JSON object"
  | critical names => "unsupported critical header parameters: " ++ String.intercalate ", " names
  | signedSegments => "compact JWS must have three segments"
  | encryptedSegments => "compact JWE must have five segments"
  | jsonMalformed => "malformed JWS JSON serialization"
  | signatureCount count => s!"expected exactly one signature, found {count}"
  | noSignature => "JWS JSON serialization has no signature"
  | notBase64 part => s!"{part} is not base64url"
  | noContentEncryption => "JWE header has no enc"
  | directCarriesKey => "direct encryption carries no encrypted key"
  | agreementCarriesKey => "ECDH-ES carries no encrypted key"
  | noEphemeralKey => "missing epk header"
  | ephemeralKey => "invalid epk header"
  | ephemeralCurve => "epk is not on the recipient key's curve"
  | noSealedKeyParameters algorithm => s!"{algorithm} needs iv and tag headers"
  | noPasswordParameters algorithm => s!"{algorithm} needs p2s and p2c headers"
  | shortSalt => "p2s must be at least 8 bytes"
  | iterations count => s!"p2c {count} is outside the accepted range"
  | signedNotUtf8 => "signed token is not UTF-8"
  | outputNotUtf8 flaw => flaw.message

inductive Error
  | noSigningKey
  | noEncryptionKey
  | noVerificationKey
  | noDecryptionKey
  | invalidToken (flaw : TokenFlaw)
  | invalidSignature
  | decryptionFailed
  | algorithmMismatch (expected found : String)
  | unsupportedAlgorithm (name : String)
  | invalidKey (flaw : KeyFlaw)
  | unregistered (registry : Registry)
  | payload (fault : Json.Fault)
  deriving DecidableEq, Repr

namespace Error

/-- The wording. A payload that is not the JSON asked for is told by its fault alone. -/
def message : Error → String
  | noSigningKey => "failed to resolve signing key"
  | noEncryptionKey => "failed to resolve encryption key"
  | noVerificationKey => "failed to resolve key to verify signature"
  | noDecryptionKey => "failed to resolve decryption key"
  | invalidToken flaw => "invalid jwt/jwe token: " ++ flaw.message
  | invalidSignature => "invalid token signature"
  | decryptionFailed => "token decryption failed"
  | algorithmMismatch expected found => s!"algorithm mismatch: expected {expected}, found {found}"
  | unsupportedAlgorithm name => s!"unsupported algorithm: {name}"
  | invalidKey flaw => "invalid key: " ++ flaw.message
  | unregistered registry => registry.message
  | payload _ => "serialization error"

def concernsKeyResolution : Error → Bool
  | noSigningKey | noEncryptionKey | noVerificationKey | noDecryptionKey => true
  | _ => false

def concernsCryptography : Error → Bool
  | invalidSignature | decryptionFailed => true
  | _ => false

end Error

end WebToken
