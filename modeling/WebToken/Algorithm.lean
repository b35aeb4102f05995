import WebToken.Cipher.Aes
import WebToken.Curve.Basic
import WebToken.Hash.Hmac
import WebToken.Rsa.Encryption

/-!
The algorithms that tokens name: for signatures, for handing over a content key, and for the content
itself. Each is given by its construction and the parameters of it; the registered names are one
list for each kind.
-/

namespace WebToken

open Aes (KeySize)
open Sha2 (Kind)

inductive SignatureAlgorithm
  | hmac (hash : Kind)
  | pkcs1 (hash : Kind)
  | pss (hash : Kind)
  | ecdsa (curve : Curve)
  | eddsa
  deriving DecidableEq, Repr

namespace SignatureAlgorithm

def name : SignatureAlgorithm → String
  | hmac .sha256 => "HS256"
  | hmac .sha384 => "HS384"
  | hmac .sha512 => "HS512"
  | pkcs1 .sha256 => "RS256"
  | pkcs1 .sha384 => "RS384"
  | pkcs1 .sha512 => "RS512"
  | pss .sha256 => "PS256"
  | pss .sha384 => "PS384"
  | pss .sha512 => "PS512"
  | ecdsa .p256 => "ES256"
  | ecdsa .p384 => "ES384"
  | ecdsa .p521 => "ES512"
  | eddsa => "EdDSA"

def all : List SignatureAlgorithm :=
  [hmac .sha256, hmac .sha384, hmac .sha512, pkcs1 .sha256, pkcs1 .sha384, pkcs1 .sha512,
    pss .sha256, pss .sha384, pss .sha512, ecdsa .p256, ecdsa .p384, ecdsa .p521, eddsa]

def ofName? (text : String) : Option SignatureAlgorithm := all.find? (·.name == text)

end SignatureAlgorithm

/-- An algorithm that hands the content key to the recipient. -/
inductive KeyAlgorithm
  /-- A registered name without a scheme behind it. -/
  | ed25519
  | rsaPkcs1
  | rsaOaep (hash : Rsa.Oaep.Hash)
  | aesWrap (size : KeySize)
  /-- The shared secret is the content key. -/
  | direct
  /-- Agreement with an ephemeral key, on the content key itself or on a key that wraps it. -/
  | agreement (wrap : Option KeySize)
  | gcmWrap (size : KeySize)
  /-- A password stretched to a key that wraps the content key. -/
  | password (size : KeySize)
  deriving DecidableEq, Repr

namespace KeyAlgorithm

def name : KeyAlgorithm → String
  | ed25519 => "ED25519"
  | rsaPkcs1 => "RSA1_5"
  | rsaOaep .sha1 => "RSA-OAEP"
  | rsaOaep .sha256 => "RSA-OAEP-256"
  | aesWrap .bits128 => "A128KW"
  | aesWrap .bits192 => "A192KW"
  | aesWrap .bits256 => "A256KW"
  | direct => "dir"
  | agreement none => "ECDH-ES"
  | agreement (some .bits128) => "ECDH-ES+A128KW"
  | agreement (some .bits192) => "ECDH-ES+A192KW"
  | agreement (some .bits256) => "ECDH-ES+A256KW"
  | gcmWrap .bits128 => "A128GCMKW"
  | gcmWrap .bits192 => "A192GCMKW"
  | gcmWrap .bits256 => "A256GCMKW"
  | password .bits128 => "PBES2-HS256+A128KW"
  | password .bits192 => "PBES2-HS384+A192KW"
  | password .bits256 => "PBES2-HS512+A256KW"

def all : List KeyAlgorithm :=
  [ed25519, rsaPkcs1, rsaOaep .sha1, rsaOaep .sha256, aesWrap .bits128, aesWrap .bits192,
    aesWrap .bits256, direct, agreement none, agreement (some .bits128), agreement (some .bits192),
    agreement (some .bits256), gcmWrap .bits128, gcmWrap .bits192, gcmWrap .bits256,
    password .bits128, password .bits192, password .bits256]

def ofName? (text : String) : Option KeyAlgorithm := all.find? (·.name == text)

def wrapSize? : KeyAlgorithm → Option KeySize
  | aesWrap size => some size
  | agreement wrap => wrap
  | password size => some size
  | _ => none

def gcmSize? : KeyAlgorithm → Option KeySize
  | gcmWrap size => some size
  | _ => none

def stretchHash : KeySize → Kind
  | .bits128 => .sha256
  | .bits192 => .sha384
  | .bits256 => .sha512

end KeyAlgorithm

inductive ContentEncryption
  | cbcHmac (size : KeySize)
  | gcm (size : KeySize)
  deriving DecidableEq, Repr

namespace ContentEncryption

def name : ContentEncryption → String
  | cbcHmac .bits128 => "A128CBC-HS256"
  | cbcHmac .bits192 => "A192CBC-HS384"
  | cbcHmac .bits256 => "A256CBC-HS512"
  | gcm .bits128 => "A128GCM"
  | gcm .bits192 => "A192GCM"
  | gcm .bits256 => "A256GCM"

def all : List ContentEncryption :=
  [cbcHmac .bits128, cbcHmac .bits192, cbcHmac .bits256, gcm .bits128, gcm .bits192, gcm .bits256]

def ofName? (text : String) : Option ContentEncryption := all.find? (·.name == text)

/-- The bytes of a content key: one key, or the keys of the hash and the cipher. -/
def keyLength : ContentEncryption → Nat
  | cbcHmac size => 2 * size.bytes
  | gcm size => size.bytes

def ivLength : ContentEncryption → Nat
  | cbcHmac _ => 16
  | gcm _ => 12

end ContentEncryption

inductive Registry
  | signature
  | keyManagement
  | contentEncryption
  deriving DecidableEq, Repr

def Registry.message : Registry → String
  | signature => "signature algorithm is invalid"
  | keyManagement => "encryption algorithm is invalid"
  | contentEncryption => "encryption encoding is invalid"

/-- Whether a name stands for no algorithm at all. -/
def namesNone (name : String) : Bool := name.isEmpty || name == "none"

end WebToken
