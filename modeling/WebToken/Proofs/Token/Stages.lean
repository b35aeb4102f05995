import WebToken.Proofs.Text.Utf8
import WebToken.Token.Decode

/-!
Decoding in two stages: the bytes that a token stands for, decrypted if the suite asks for it, and then
the payload of a signed token, if the suite asks for that.
-/

namespace WebToken.Token

variable {token text : String} {keys verification decryption : KeySet} {hint : Suite} {second : Int}
  {seconds : Seconds} {draws : Draws} {payload : Bytes} {jwe : Jwe} {jws : Jws}

def decryptParsed (keys : KeySet) (hint : Suite) (second : Int) (draws : Draws) (jwe : Jwe) : Except Error Bytes := do
  checkEncryption hint jwe.header
  let key ← require .noDecryptionKey (findKey? keys jwe.header .encryption second)
  checkKey hint.keyManagementFromKey key jwe.header
  jwe.decrypt key draws

def verifyParsed (keys : KeySet) (hint : Suite) (second : Int) (jws : Jws) : Except Error Bytes := do
  checkSignature hint jws.header
  let key ← require .noVerificationKey (findKey? keys jws.header .signature second)
  checkKey hint.signatureFromKey key jws.header
  jws.verify key.toPublic

theorem verifyStage_ofText :
    verifyStage (Bytes.ofText text) keys hint second =
      (Jws.parse text).mapError .invalidToken >>= verifyParsed keys hint second := by
  rw [verifyStage, Utf8.decode?_eq_some_iff.mpr rfl, require, ok_bind]
  rfl

theorem decryptStage_of_parse (parsed : Jwe.parse token = .ok jwe) :
    decryptStage token keys hint second draws = decryptParsed keys hint second draws jwe := by
  rw [decryptStage, mapError_eq_ok.mpr parsed, ok_bind]
  rfl

theorem verifyStage_of_parse (parsed : Jws.parse text = .ok jws) :
    verifyStage (Bytes.ofText text) keys hint second = verifyParsed keys hint second jws := by
  rw [verifyStage_ofText, mapError_eq_ok.mpr parsed, ok_bind]

theorem decryptStage_iff_parsed {plaintext : Bytes} :
    decryptStage token keys hint second draws = .ok plaintext ↔
      ∃ jwe, Jwe.parse token = .ok jwe ∧ decryptParsed keys hint second draws jwe = .ok plaintext := by
  constructor
  · intro passed
    obtain ⟨jwe, parsed, decrypted⟩ := bind_eq_ok.mp passed
    exact ⟨jwe, mapError_eq_ok.mp parsed, decrypted⟩
  · rintro ⟨jwe, parsed, decrypted⟩
    rw [decryptStage_of_parse parsed, decrypted]

theorem verifyStage_iff_parsed {bytes : Bytes} :
    verifyStage bytes keys hint second = .ok payload ↔
      ∃ text jws, bytes = Bytes.ofText text ∧ Jws.parse text = .ok jws ∧
        verifyParsed keys hint second jws = .ok payload := by
  constructor
  · intro passed
    obtain ⟨text, utf8, passed⟩ := bind_eq_ok.mp passed
    obtain ⟨jws, parsed, verified⟩ := bind_eq_ok.mp passed
    exact ⟨text, jws, Utf8.decode?_eq_some_iff.mp (require_eq_ok.mp utf8), mapError_eq_ok.mp parsed, verified⟩
  · rintro ⟨text, jws, rfl, parsed, verified⟩
    rw [verifyStage_of_parse parsed, verified]

def received (token : String) (decryption : KeySet) (hint : Suite) (second : Int) (draws : Draws) :
    Except Error Bytes :=
  if hint.encrypts then decryptStage token decryption hint second draws else .ok (Bytes.ofText token)

theorem decodeBytes_eq_bind :
    decodeBytes token verification decryption hint seconds draws =
      received token decryption hint seconds.encryption draws >>= fun bytes =>
        if hint.signs then verifyStage bytes verification hint seconds.signature else .ok bytes := by
  unfold decodeBytes received
  cases hint.encrypts <;> cases hint.signs <;> rfl

theorem decodeBytes_of_signs {bytes : Bytes} (signs : hint.signs = true)
    (opened : received token decryption hint seconds.encryption draws = .ok bytes) :
    decodeBytes token verification decryption hint seconds draws =
      verifyStage bytes verification hint seconds.signature := by
  rw [decodeBytes_eq_bind, opened, ok_bind, if_pos signs]

theorem verifyStage_of_decodeBytes (signs : hint.signs = true)
    (decoded : decodeBytes token verification decryption hint seconds draws = .ok payload) :
    ∃ bytes, received token decryption hint seconds.encryption draws = .ok bytes ∧
      verifyStage bytes verification hint seconds.signature = .ok payload := by
  rw [decodeBytes_eq_bind] at decoded
  obtain ⟨bytes, opened, verified⟩ := bind_eq_ok.mp decoded
  rw [if_pos signs] at verified
  exact ⟨bytes, opened, verified⟩

end WebToken.Token
