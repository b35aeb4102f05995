import WebToken.Cipher.KeyWrap
import WebToken.Content
import WebToken.Hash.ConcatKdf
import WebToken.Key.Basic

/-!
Handing a content key to the recipient of a token. `deliver` makes a content key and what the
recipient needs to get it back; `recover` gets it back from the members of the header and the
encrypted key.
-/

namespace WebToken

open Aes (KeySize)

structure Delivery where
  contentKey : Bytes
  encryptedKey : Bytes
  ephemeral : Option Material := none
  iv : Option Bytes := none
  tag : Option Bytes := none
  salt : Option Bytes := none
  iterations : Option Nat := none

structure KeyParameters where
  ephemeral : Option Jwk
  sender : Bytes
  recipient : Bytes
  iv : Option Bytes
  tag : Option Bytes
  salt : Option Bytes
  iterations : Option Nat

namespace KeyManagement

def passwordIterations : Nat := 100000

def acceptsIterations (count : Nat) : Bool := 1000 ≤ count && count ≤ 1000000

/-- The bytes of a salt when a token is made, and the fewest that are accepted. -/
def saltLength : Nat := 16

def minSaltLength : Nat := 8

def needs (algorithm what : String) (material : Material) : Error :=
  .invalidKey (.needs algorithm what material.keyType)

def secretOfLength (key : Key) (algorithm : KeyAlgorithm) (length : Nat) : Except Error Bytes :=
  match key.material with
  | .symmetric secret =>
      if secret.length = length then .ok secret
      else .error (.invalidKey (.secretLength algorithm.name length secret.length))
  | material => .error (needs algorithm.name "a symmetric key" material)

def passwordOf (key : Key) (algorithm : KeyAlgorithm) : Except Error Bytes :=
  match key.material with
  | .symmetric secret =>
      if secret.isEmpty then .error (.invalidKey (.emptyPassword algorithm.name)) else .ok secret
  | material => .error (needs algorithm.name "a symmetric key" material)

def wrap (size : KeySize) (key contentKey : Bytes) : Except Error Bytes :=
  require (.invalidKey .wrapLength) (KeyWrap.wrap? size key contentKey)

def unwrap (size : KeySize) (key wrapped : Bytes) : Except Error Bytes :=
  require .decryptionFailed (KeyWrap.unwrap? size key wrapped)

/-- The key that an agreed secret gives: the content key itself, or the key that wraps it. -/
def agreedKey (wrap : Option KeySize) (encryption : ContentEncryption)
    (secret sender recipient : Bytes) : Bytes :=
  let (name, length) := match wrap with
    | some size => ((KeyAlgorithm.agreement wrap).name, size.bytes)
    | none => (encryption.name, encryption.keyLength)
  ConcatKdf.derive secret ⟨Bytes.ofText name, sender, recipient, length⟩

/-- The key that a password gives. The salt begins with the name of the algorithm. -/
def passwordKey (size : KeySize) (password salt : Bytes) (iterations : Nat) : Bytes :=
  (KeyAlgorithm.stretchHash size).pbkdf2 password
    (Bytes.ofText (KeyAlgorithm.password size).name ++ 0 :: salt) iterations size.bytes

def ephemeralScalar (curve : Curve) (drawn : Nat) : Nat := 1 + drawn % (curve.order - 1)

/-- Agrees on a secret with a fresh ephemeral key; also its public half. -/
def agreeEphemeral (draws : Draws) : Material → Except Error (Bytes × Material)
  | .ecPublic curve point =>
      let secret := ephemeralScalar curve draws.ephemeral
      .ok (curve.agree secret point, .ecPublic curve (curve.publicPoint secret))
  | material => .error (needs "ECDH-ES" "an EC public key" material)

def agreeStatic (material ephemeral : Material) : Except Error Bytes :=
  match material, ephemeral with
  | .ecPrivate curve secret, .ecPublic found point =>
      if curve = found then .ok (curve.agree secret point)
      else .error (.invalidToken .ephemeralCurve)
  | .ecPrivate _ _, _ => .error (.invalidToken .ephemeralCurve)
  | material, _ => .error (needs "ECDH-ES" "an EC private key" material)

def rsaEncrypt (algorithm : KeyAlgorithm) (draws : Draws) (key : Rsa.PublicKey) (contentKey : Bytes) :
    Except Rsa.Failure Bytes :=
  match algorithm with
  | .rsaOaep hash => Rsa.Oaep.encrypt key hash (draws.encryptionSeed.take hash.size) contentKey
  | _ =>
      let padding := draws.encryptionPadding.takeNonzero (Rsa.Pkcs1.paddingLength key contentKey)
      Rsa.Pkcs1.encrypt key padding contentKey

/-- Decrypts a content key with an RSA key. With the padding of PKCS #1 no failure is told: a key
drawn at random takes the place of one that cannot be had, or that has the wrong length. -/
def rsaDecrypt (algorithm : KeyAlgorithm) (draws : Draws) (key : Rsa.PrivateKey) (encryptedKey : Bytes)
    (length : Nat) : Except Error Bytes :=
  match algorithm with
  | .rsaOaep hash => (Rsa.Oaep.decrypt key hash encryptedKey).mapError fun _ => .decryptionFailed
  | _ =>
      let drawn := draws.standInKey.take length
      match Rsa.Pkcs1.decrypt key encryptedKey with
      | .ok contentKey => .ok (if contentKey.length = length then contentKey else drawn)
      | .error _ => .ok drawn

def deliverRsaTo (algorithm : KeyAlgorithm) (encryption : ContentEncryption) (recipient : Rsa.PublicKey)
    (draws : Draws) : Except Error Delivery := do
  let contentKey := draws.contentKey.take encryption.keyLength
  let encryptedKey ← (rsaEncrypt algorithm draws recipient contentKey).mapError
    fun failure => .invalidKey (.rsaEncryption failure)
  return { contentKey, encryptedKey }

/-- A private key is delivered to as its public half. -/
def deliverRsa (algorithm : KeyAlgorithm) (encryption : ContentEncryption) (key : Key) (draws : Draws) :
    Except Error Delivery :=
  match key.material with
  | .rsaPublic recipient => deliverRsaTo algorithm encryption recipient draws
  | .rsaPrivate own => deliverRsaTo algorithm encryption own.toPublic draws
  | material => .error (needs algorithm.name "an RSA key" material)

def recoverRsa (algorithm : KeyAlgorithm) (encryption : ContentEncryption) (key : Key) (draws : Draws)
    (encryptedKey : Bytes) : Except Error Bytes :=
  match key.material with
  | .rsaPrivate recipient => rsaDecrypt algorithm draws recipient encryptedKey encryption.keyLength
  | material => .error (needs algorithm.name "an RSA private key" material)

def deliver (algorithm : KeyAlgorithm) (encryption : ContentEncryption) (key : Key) (draws : Draws) :
    Except Error Delivery :=
  match algorithm with
  | .ed25519 => .error (.unsupportedAlgorithm algorithm.name)
  | .direct => do
      let secret ← secretOfLength key algorithm encryption.keyLength
      return { contentKey := secret, encryptedKey := [] }
  | .aesWrap size => do
      let secret ← secretOfLength key algorithm size.bytes
      let contentKey := draws.contentKey.take encryption.keyLength
      let encryptedKey ← wrap size secret contentKey
      return { contentKey, encryptedKey }
  | .rsaPkcs1 => deliverRsa algorithm encryption key draws
  | .rsaOaep _ => deliverRsa algorithm encryption key draws
  | .agreement wrapSize => do
      let recipient ← require (needs algorithm.name "an EC key" key.material) key.material.public?
      let (secret, ephemeral) ← agreeEphemeral draws recipient
      let agreed := agreedKey wrapSize encryption secret [] []
      match wrapSize with
      | none => return { contentKey := agreed, encryptedKey := [], ephemeral := some ephemeral }
      | some size =>
          let contentKey := draws.contentKey.take encryption.keyLength
          let encryptedKey ← wrap size agreed contentKey
          return { contentKey, encryptedKey, ephemeral := some ephemeral }
  | .gcmWrap size => do
      let secret ← secretOfLength key algorithm size.bytes
      let contentKey := draws.contentKey.take encryption.keyLength
      let iv := draws.sealedKeyIv.take Gcm.ivSize
      let (encryptedKey, tag) := Gcm.sealText size secret iv [] contentKey
      return { contentKey, encryptedKey, iv := some iv, tag := some tag }
  | .password size => do
      let salt := draws.passwordSalt.take saltLength
      let password ← passwordOf key algorithm
      let contentKey := draws.contentKey.take encryption.keyLength
      let encryptedKey ← wrap size (passwordKey size password salt passwordIterations) contentKey
      return { contentKey, encryptedKey, salt := some salt, iterations := some passwordIterations }

def recover (algorithm : KeyAlgorithm) (encryption : ContentEncryption) (key : Key) (draws : Draws)
    (encryptedKey : Bytes) (parameters : KeyParameters) : Except Error Bytes :=
  match algorithm with
  | .ed25519 => .error (.unsupportedAlgorithm algorithm.name)
  | .direct =>
      if encryptedKey.isEmpty then secretOfLength key algorithm encryption.keyLength
      else .error (.invalidToken .directCarriesKey)
  | .aesWrap size => do
      let secret ← secretOfLength key algorithm size.bytes
      unwrap size secret encryptedKey
  | .rsaPkcs1 => recoverRsa algorithm encryption key draws encryptedKey
  | .rsaOaep _ => recoverRsa algorithm encryption key draws encryptedKey
  | .agreement wrapSize => do
      let jwk ← require (.invalidToken .noEphemeralKey) parameters.ephemeral
      let ephemeral ← jwk.material.mapError fun _ => .invalidToken .ephemeralKey
      let secret ← agreeStatic key.material ephemeral
      let agreed := agreedKey wrapSize encryption secret parameters.sender parameters.recipient
      match wrapSize with
      | none => if encryptedKey.isEmpty then .ok agreed else .error (.invalidToken .agreementCarriesKey)
      | some size => unwrap size agreed encryptedKey
  | .gcmWrap size =>
      match parameters.iv, parameters.tag with
      | some iv, some tag => do
          let secret ← secretOfLength key algorithm size.bytes
          require .decryptionFailed (Gcm.openText? size secret iv [] encryptedKey tag)
      | _, _ => .error (.invalidToken (.noSealedKeyParameters algorithm.name))
  | .password size =>
      match parameters.salt, parameters.iterations with
      | some salt, some iterations => do
          if salt.length < minSaltLength then throw (.invalidToken .shortSalt)
          if !acceptsIterations iterations then throw (.invalidToken (.iterations iterations))
          let password ← passwordOf key algorithm
          unwrap size (passwordKey size password salt iterations) encryptedKey
      | _, _ => .error (.invalidToken (.noPasswordParameters algorithm.name))

end KeyManagement

end WebToken
