import WebToken.Cipher.CbcHmac
import WebToken.Cipher.Gcm
import WebToken.Draws
import WebToken.Error

/-!
Encrypting the content of a token and the key that encrypts it. Opening fails in one way only, so
nothing tells a wrong key from a changed ciphertext or a bad padding.
-/

namespace WebToken

structure Sealed where
  iv : Bytes
  ciphertext : Bytes
  tag : Bytes
  deriving DecidableEq, Repr

namespace ContentEncryption

def sealContent (encryption : ContentEncryption) (draws : Draws) (key associated plaintext : Bytes) :
    Except Error Sealed :=
  if key.length ≠ encryption.keyLength then
    .error (.invalidKey (.secretLength encryption.name encryption.keyLength key.length))
  else
    let iv := draws.contentIv.take encryption.ivLength
    let (ciphertext, tag) := match encryption with
      | gcm size => Gcm.sealText size key iv associated plaintext
      | cbcHmac size => CbcHmac.sealText size key iv associated plaintext
    .ok ⟨iv, ciphertext, tag⟩

def openContent (encryption : ContentEncryption) (key associated : Bytes) (content : Sealed) :
    Except Error Bytes :=
  if key.length ≠ encryption.keyLength then .error .decryptionFailed
  else
    require .decryptionFailed <| match encryption with
      | gcm size => Gcm.openText? size key content.iv associated content.ciphertext content.tag
      | cbcHmac size => CbcHmac.openText? size key content.iv associated content.ciphertext content.tag

end ContentEncryption

end WebToken
