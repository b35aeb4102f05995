import WebToken.Proofs.Content
import WebToken.Proofs.Jwe.Disclosure
import WebToken.Proofs.Jwe.RoundTrip

/-!
Content keys under the padding of PKCS #1. An encrypted key that gives no content key of the right length is
as good as one that gives a random key: what comes out of the token is what the content gives under that key,
and nothing in it tells why.
-/

namespace WebToken

namespace KeyManagement

/-- No text of a length comes out of an encrypted key: the padding is bad, or the text has another length. -/
def Unusable (own : Rsa.PrivateKey) (encryptedKey : Bytes) (length : Nat) : Prop :=
  ∀ text, Rsa.Pkcs1.decrypt own encryptedKey = .ok text → text.length ≠ length

/-- The content key that is taken: the text that was encrypted, or the drawn key if the encrypted key is of no
use. -/
inductive Takes (own : Rsa.PrivateKey) (encryptedKey : Bytes) (length : Nat) (drawn : Bytes) : Bytes → Prop
  | text {contentKey : Bytes} (decrypted : Rsa.Pkcs1.decrypt own encryptedKey = .ok contentKey)
      (sized : contentKey.length = length) : Takes own encryptedKey length drawn contentKey
  | standIn (unusable : Unusable own encryptedKey length) : Takes own encryptedKey length drawn drawn

variable {own : Rsa.PrivateKey} {key : Key} {encryptedKey drawn contentKey : Bytes} {length : Nat}

theorem Takes.length_eq (takes : Takes own encryptedKey length drawn contentKey) (sized : drawn.length = length) :
    contentKey.length = length := by
  cases takes with
  | text _ same => exact same
  | standIn _ => exact sized

theorem Takes.eq_drawn (takes : Takes own encryptedKey length drawn contentKey)
    (unusable : Unusable own encryptedKey length) : contentKey = drawn := by
  cases takes with
  | text decrypted sized => exact absurd sized (unusable contentKey decrypted)
  | standIn _ => rfl

theorem exists_takes (own : Rsa.PrivateKey) (draws : Draws) (encryptedKey : Bytes) (length : Nat) :
    ∃ contentKey, rsaDecrypt .rsaPkcs1 draws own encryptedKey length = .ok contentKey ∧
      Takes own encryptedKey length (draws.standInKey.take length) contentKey := by
  simp only [rsaDecrypt]
  cases decrypted : Rsa.Pkcs1.decrypt own encryptedKey with
  | error failure =>
      refine ⟨_, rfl, .standIn fun text found => ?_⟩
      cases decrypted.symm.trans found
  | ok text =>
      by_cases sized : text.length = length
      · exact ⟨text, congrArg Except.ok (if_pos sized), .text decrypted sized⟩
      · refine ⟨_, congrArg Except.ok (if_neg sized), .standIn fun other found => ?_⟩
        rwa [← Except.ok.inj (decrypted.symm.trans found)]

/-- With an RSA key there always is a content key, and it has the right length. -/
theorem recover_rsaPkcs1 (encryption : ContentEncryption) (draws : Draws) (encryptedKey : Bytes)
    (shared : key.material = .rsaPrivate own) (parameters : KeyParameters) :
    ∃ contentKey, recover .rsaPkcs1 encryption key draws encryptedKey parameters = .ok contentKey ∧
      contentKey.length = encryption.keyLength ∧
      Takes own encryptedKey encryption.keyLength (draws.standInKey.take encryption.keyLength) contentKey := by
  obtain ⟨contentKey, found, takes⟩ := exists_takes own draws encryptedKey encryption.keyLength
  refine ⟨contentKey, ?_, takes.length_eq (ByteSource.length_take _ _), takes⟩
  rw [recover, recoverRsa, shared]
  exact found

end KeyManagement

namespace Jwe

open KeyManagement

/-- A token under the padding of PKCS #1, with nothing in its header that cannot be read. -/
structure NamesPkcs1 (jwe : Jwe) (encryption : ContentEncryption) : Prop where
  alg : jwe.header.alg = "RSA1_5"
  enc : jwe.header.enc = some encryption.name
  parts : ∀ part ∈ [jwe.header.apu, jwe.header.apv, jwe.header.iv, jwe.header.tag, jwe.header.p2s],
    ∃ bytes : Option Bytes, part = bytes.map Base64Url.encode

variable {jwe : Jwe} {encryption : ContentEncryption} {key : Key} {own : Rsa.PrivateKey} {draws : Draws}

theorem exists_keyParameters {header : Header}
    (parts : ∀ part ∈ [header.apu, header.apv, header.iv, header.tag, header.p2s],
      ∃ bytes : Option Bytes, part = bytes.map Base64Url.encode) :
    ∃ parameters, keyParameters header = .ok parameters := by
  simp only [List.forall_mem_cons] at parts
  obtain ⟨⟨sender, apu⟩, ⟨recipient, apv⟩, ⟨vector, iv⟩, ⟨mark, tag⟩, ⟨salt, p2s⟩, _⟩ := parts
  simp only [keyParameters, apu, apv, iv, tag, p2s, optionalPart_map_encode, ok_bind]
  exact ⟨_, rfl⟩

/-- What comes out of a token is what its content gives under the content key that is taken. -/
theorem decrypt_rsaPkcs1 (names : jwe.NamesPkcs1 encryption) (shared : key.material = .rsaPrivate own)
    (draws : Draws) :
    ∃ contentKey, contentKey.length = encryption.keyLength ∧
      Takes own jwe.encryptedKey encryption.keyLength (draws.standInKey.take encryption.keyLength) contentKey ∧
      jwe.decrypt key draws = encryption.openContent contentKey (Bytes.ofText jwe.protectedText) jwe.content := by
  obtain ⟨parameters, read⟩ := exists_keyParameters names.parts
  obtain ⟨contentKey, recovered, sized, takes⟩ := recover_rsaPkcs1 encryption draws jwe.encryptedKey shared parameters
  have algorithm : KeyAlgorithm.ofName? jwe.header.alg = some .rsaPkcs1 := by
    rw [names.alg]
    exact KeyAlgorithm.ofName?_name .rsaPkcs1
  have content : ContentEncryption.ofName? (jwe.header.enc.getD "") = some encryption := by
    rw [names.enc]
    exact ContentEncryption.ofName?_name encryption
  refine ⟨contentKey, sized, takes, ?_⟩
  rw [decrypt, algorithm, require, ok_bind]
  dsimp only
  rw [content, require, ok_bind, mapError_eq_ok.mpr read, ok_bind, recovered, ok_bind]

theorem decrypt_unusable (names : jwe.NamesPkcs1 encryption) (shared : key.material = .rsaPrivate own)
    (unusable : Unusable own jwe.encryptedKey encryption.keyLength) (draws : Draws) :
    jwe.decrypt key draws = encryption.openContent (draws.standInKey.take encryption.keyLength)
      (Bytes.ofText jwe.protectedText) jwe.content := by
  obtain ⟨contentKey, _, takes, same⟩ := decrypt_rsaPkcs1 names shared draws
  rw [same, takes.eq_drawn unusable]

/-- Any content key may be drawn, so an encrypted key that is of no use gives what any of them does. -/
theorem exists_decrypt_unusable (names : jwe.NamesPkcs1 encryption) (shared : key.material = .rsaPrivate own)
    (unusable : Unusable own jwe.encryptedKey encryption.keyLength) (draws : Draws) {unrelated : Bytes}
    (sized : unrelated.length = encryption.keyLength) :
    ∃ source, jwe.decrypt key { draws with standInKey := source } =
      encryption.openContent unrelated (Bytes.ofText jwe.protectedText) jwe.content := by
  obtain ⟨source, drawn⟩ := ByteSource.exists_take unrelated
  refine ⟨source, ?_⟩
  rw [decrypt_unusable names shared unusable, ← sized, drawn]

/-- An RSA key recovers a content key of the right length from every encrypted key: the text that was encrypted
if it has that length, and a drawn key in its place otherwise. A token then gives its plaintext or fails to be
decrypted, as its content does under that key. If the encrypted key is of no use this is the content under a drawn
key, whatever the padding and the RSA key; and each outcome of any encrypted key, a wrong content key included, is
one that a useless encrypted key in its place has under some draw. -/
theorem decrypt_conceals_padding :
    (∀ (encryption : ContentEncryption) (key : Key) (own : Rsa.PrivateKey) (draws : Draws) (encryptedKey : Bytes)
        (parameters : KeyParameters), key.material = .rsaPrivate own →
      ∃ contentKey, recover .rsaPkcs1 encryption key draws encryptedKey parameters = .ok contentKey ∧
        contentKey.length = encryption.keyLength ∧
        Takes own encryptedKey encryption.keyLength (draws.standInKey.take encryption.keyLength) contentKey) ∧
    (∀ (jwe : Jwe) (encryption : ContentEncryption) (key : Key) (own : Rsa.PrivateKey) (draws : Draws),
      jwe.NamesPkcs1 encryption → key.material = .rsaPrivate own →
        ((∃ plaintext, jwe.decrypt key draws = .ok plaintext) ∨ jwe.decrypt key draws = .error .decryptionFailed) ∧
          ∃ contentKey, contentKey.length = encryption.keyLength ∧
            Takes own jwe.encryptedKey encryption.keyLength (draws.standInKey.take encryption.keyLength) contentKey ∧
            jwe.decrypt key draws =
              encryption.openContent contentKey (Bytes.ofText jwe.protectedText) jwe.content) ∧
    (∀ (jwe : Jwe) (encryption : ContentEncryption) (key : Key) (own : Rsa.PrivateKey) (draws : Draws),
      jwe.NamesPkcs1 encryption → key.material = .rsaPrivate own →
        Unusable own jwe.encryptedKey encryption.keyLength →
        jwe.decrypt key draws = encryption.openContent (draws.standInKey.take encryption.keyLength)
            (Bytes.ofText jwe.protectedText) jwe.content ∧
          ∀ unrelated : Bytes, unrelated.length = encryption.keyLength →
            ∃ source, jwe.decrypt key { draws with standInKey := source } =
              encryption.openContent unrelated (Bytes.ofText jwe.protectedText) jwe.content) ∧
    ∀ (jwe : Jwe) (encryption : ContentEncryption) (key other : Key) (own another : Rsa.PrivateKey)
        (useless : Bytes) (draws : Draws),
      jwe.NamesPkcs1 encryption → key.material = .rsaPrivate own → other.material = .rsaPrivate another →
        Unusable another useless encryption.keyLength →
        ∃ source, decrypt { jwe with encryptedKey := useless } other { draws with standInKey := source } =
          jwe.decrypt key draws := by
  refine ⟨?recovers, ?opens, ?standsIn, ?conceals⟩
  case recovers =>
      intro encryption key own draws encryptedKey parameters shared
      exact recover_rsaPkcs1 encryption draws encryptedKey shared parameters
  case opens =>
      intro jwe encryption key own draws names shared
      obtain ⟨contentKey, sized, takes, same⟩ := decrypt_rsaPkcs1 names shared draws
      refine ⟨?_, contentKey, sized, takes, same⟩
      rw [same]
      exact Disclosure.told?_eq_none.mp (Disclosure.told?_openContent _ _ _ _)
  case standsIn =>
      intro jwe encryption key own draws names shared unusable
      refine ⟨decrypt_unusable names shared unusable draws, ?_⟩
      intro unrelated sized
      exact exists_decrypt_unusable names shared unusable draws sized
  case conceals =>
      intro jwe encryption key other own another useless draws names shared otherShared unusable
      obtain ⟨contentKey, sized, _, same⟩ := decrypt_rsaPkcs1 names shared draws
      have namesToo : NamesPkcs1 { jwe with encryptedKey := useless } encryption := ⟨names.alg, names.enc, names.parts⟩
      rw [same]
      exact exists_decrypt_unusable namesToo otherShared unusable draws sized

/-- A key of 28 bytes. -/
def shortKey : Rsa.PrivateKey where
  n := 22230510518358225959452974013847404826296242098259417741132097857421
  e := 3
  d := 14820340345572150639635316009231596903078351981122683117938233908563
  p := 5180433438840573861131498844543899
  q := 4291245275286001531932725902450679

/-- The content key whose bytes count from one, and what it is encrypted as. -/
def countedKey : Bytes := [1, 2, 3, 4, 5, 6, 7, 8, 9, 10, 11, 12, 13, 14, 15, 16]

def wrappedKey : Bytes := Bytes.ofNat 28 548573461941435410934932926454874756886067311907071556445153184003

def pkcs1Token (encryption : ContentEncryption) (encryptedKey : Bytes) (content : Sealed) : Jwe :=
  ⟨{ alg := "RSA1_5", enc := some encryption.name, apu := some "" }, "", encryptedKey, content⟩

/-- Content under the counted key: the right encrypted key opens it, and so does the empty one under some draw.
For an encryption with longer keys the counted key is as good as none. -/
theorem decrypt_conceals_padding_counted :
    let key : Key := ⟨"a", none, none, .rsaPrivate shortKey⟩
    ∃ content, (pkcs1Token (.gcm .bits128) wrappedKey content).decrypt key (.constant 7 0) = .ok [1, 2, 3] ∧
      (∃ source, (pkcs1Token (.gcm .bits128) [] content).decrypt key
        { Draws.constant 7 0 with standInKey := source } = .ok [1, 2, 3]) ∧
      (∃ drawn, recover .rsaPkcs1 (.gcm .bits192) key (.constant 7 0) wrappedKey
          ⟨none, [], [], none, none, none, none⟩ = .ok drawn ∧ drawn = List.replicate 24 7) ∧
      (pkcs1Token (.gcm .bits192) wrappedKey content).decrypt key (.constant 7 0) =
        (ContentEncryption.gcm .bits192).openContent (List.replicate 24 7) (Bytes.ofText "") content := by
  intro key
  have decrypted : Rsa.Pkcs1.decrypt shortKey wrappedKey = .ok countedKey := ok_of_toOption (by decide +kernel)
  have padding : ∀ length, Unusable shortKey [] length := by
    intro length text found
    have nothing : (Rsa.Pkcs1.decrypt shortKey []).toOption = none := by decide +kernel
    rw [found] at nothing
    cases nothing
  have short : Unusable shortKey wrappedKey (ContentEncryption.gcm .bits192).keyLength := by
    intro text found
    rw [← Except.ok.inj (decrypted.symm.trans found)]
    decide
  have names : ∀ encryption encryptedKey content,
      (pkcs1Token encryption encryptedKey content).NamesPkcs1 encryption := by
    intro encryption encryptedKey content
    refine ⟨rfl, rfl, ?_⟩
    simp only [List.forall_mem_cons]
    exact ⟨⟨some [], rfl⟩, ⟨none, rfl⟩, ⟨none, rfl⟩, ⟨none, rfl⟩, ⟨none, rfl⟩, nofun⟩
  obtain ⟨content, made⟩ : ∃ content, (ContentEncryption.gcm .bits128).sealContent (.constant 3 0) countedKey
      (Bytes.ofText "") [1, 2, 3] = .ok content := ContentEncryption.exists_sealContent rfl
  obtain ⟨recovers, opens, stands, conceals⟩ := decrypt_conceals_padding
  obtain ⟨_, contentKey, _, takes, same⟩ :=
    opens (pkcs1Token (.gcm .bits128) wrappedKey content) _ key shortKey (.constant 7 0) (names _ _ _) rfl
  obtain rfl : contentKey = countedKey := by
    cases takes with
    | text found _ => exact Except.ok.inj (found.symm.trans decrypted)
    | standIn unusable => exact absurd rfl (unusable countedKey decrypted)
  have opened := same.trans (ContentEncryption.openContent_sealContent made)
  obtain ⟨source, alike⟩ :=
    conceals _ _ key key shortKey shortKey [] _ (names (.gcm .bits128) wrappedKey content) rfl rfl (padding _)
  obtain ⟨drawn, recovered, _, stand⟩ :=
    recovers (.gcm .bits192) key shortKey (.constant 7 0) wrappedKey ⟨none, [], [], none, none, none, none⟩ rfl
  obtain ⟨standsIn, _⟩ :=
    stands _ _ key shortKey (.constant 7 0) (names (.gcm .bits192) wrappedKey content) rfl short
  exact ⟨content, opened, ⟨source, alike.trans opened⟩, ⟨drawn, recovered, stand.eq_drawn short⟩, standsIn⟩

end Jwe

end WebToken
