import WebToken.Proofs.Token.RoundTrip
import WebToken.Proofs.Token.Stages

/-!
An identifier decides alone which key a stage takes. The other keys of the set have no influence on the
result, and none of them stands in for a key that is missing.
-/

namespace WebToken.Token

variable {token text : String} {verification decryption one other : KeySet} {hint : Suite} {second : Int}
  {draws : Draws} {header : Header} {use : KeyUse} {id : String} {jwe : Jwe} {jws : Jws}

theorem findKey?_of_id {keys : KeySet} (named : header.kid = some id) (nonempty : id ≠ "") :
    findKey? keys header use second = keys.byId? id := by
  rw [findKey?, keyId?_eq_some.mpr ⟨named, nonempty⟩]

theorem decryptStage_by_id (parsed : Jwe.parse token = .ok jwe) (named : jwe.header.kid = some id)
    (nonempty : id ≠ "") (same : one.byId? id = other.byId? id) :
    decryptStage token one hint second draws = decryptStage token other hint second draws := by
  rw [decryptStage_of_parse parsed, decryptStage_of_parse parsed, decryptParsed, decryptParsed,
    findKey?_of_id named nonempty, findKey?_of_id named nonempty, same]

theorem verifyStage_by_id (parsed : Jws.parse text = .ok jws) (named : jws.header.kid = some id)
    (nonempty : id ≠ "") (same : one.byId? id = other.byId? id) :
    verifyStage (Bytes.ofText text) one hint second = verifyStage (Bytes.ofText text) other hint second := by
  rw [verifyStage_of_parse parsed, verifyStage_of_parse parsed, verifyParsed, verifyParsed,
    findKey?_of_id named nonempty, findKey?_of_id named nonempty, same]

theorem received_by_id (parsed : Jwe.parse token = .ok jwe) (named : jwe.header.kid = some id)
    (nonempty : id ≠ "") (same : one.byId? id = other.byId? id) :
    received token one hint second draws = received token other hint second draws := by
  rw [received, received, decryptStage_by_id parsed named nonempty same]

theorem decryptStage_missing (parsed : Jwe.parse token = .ok jwe) (encrypts : hint.encrypts = true)
    (pinned : hint.keyManagementFromKey = false → NamesEncryption hint jwe.header)
    (named : jwe.header.kid = some id) (nonempty : id ≠ "") (missing : decryption.byId? id = none) :
    decryptStage token decryption hint second draws = .error .noDecryptionKey := by
  rw [decryptStage_of_parse parsed, decryptParsed, (checkEncryption_eq_ok encrypts).mpr pinned, ok_bind,
    findKey?_of_id named nonempty, missing]
  rfl

theorem verifyStage_missing (parsed : Jws.parse text = .ok jws) (signs : hint.signs = true)
    (pinned : hint.signatureFromKey = false → NamesSignature hint jws.header)
    (named : jws.header.kid = some id) (nonempty : id ≠ "") (missing : verification.byId? id = none) :
    verifyStage (Bytes.ofText text) verification hint second = .error .noVerificationKey := by
  rw [verifyStage_of_parse parsed, verifyParsed, (checkSignature_eq_ok signs).mpr pinned, ok_bind,
    findKey?_of_id named nonempty, missing]
  rfl

/-- A header with an identifier takes the key with that identifier. Sets that hold the same key under it,
or both none, give the same result, and a set that holds none gives no key, whatever else it holds. -/
theorem decodeBytes_by_id (token : String) (hint : Suite) (seconds : Seconds) (draws : Draws) :
    (∀ (jwe : Jwe) (id : String), Jwe.parse token = .ok jwe → jwe.header.kid = some id → id ≠ "" →
      (∀ verification one other : KeySet, one.byId? id = other.byId? id →
        decodeBytes token verification one hint seconds draws =
          decodeBytes token verification other hint seconds draws) ∧
      ∀ verification decryption : KeySet, hint.encrypts = true →
        (hint.keyManagementFromKey = false → NamesEncryption hint jwe.header) → decryption.byId? id = none →
        decodeBytes token verification decryption hint seconds draws = .error .noDecryptionKey) ∧
    ∀ (decryption : KeySet) (text : String) (jws : Jws) (id : String),
      received token decryption hint seconds.encryption draws = .ok (Bytes.ofText text) → Jws.parse text = .ok jws →
      jws.header.kid = some id → id ≠ "" →
      (∀ one other : KeySet, one.byId? id = other.byId? id →
        decodeBytes token one decryption hint seconds draws =
          decodeBytes token other decryption hint seconds draws) ∧
      ∀ verification : KeySet, hint.signs = true →
        (hint.signatureFromKey = false → NamesSignature hint jws.header) → verification.byId? id = none →
        decodeBytes token verification decryption hint seconds draws = .error .noVerificationKey := by
  constructor
  · intro jwe id parsed named nonempty
    constructor
    · intro verification one other same
      rw [decodeBytes_eq_bind, decodeBytes_eq_bind, received_by_id parsed named nonempty same]
    · intro verification decryption encrypts pinned missing
      rw [decodeBytes_eq_bind, received, if_pos encrypts,
        decryptStage_missing parsed encrypts pinned named nonempty missing]
      rfl
  · intro decryption text jws id opened parsed named nonempty
    constructor
    · intro one other same
      rw [decodeBytes_eq_bind, decodeBytes_eq_bind, opened, ok_bind, ok_bind,
        verifyStage_by_id parsed named nonempty same]
    · intro verification signs pinned missing
      rw [decodeBytes_of_signs signs opened]
      exact verifyStage_missing parsed signs pinned named nonempty missing

/-- The signing key under another identifier. -/
def renamedKey : Key := escapedKey.withId "b"

/-- An encryption key with the identifier `a`, and the same one with the identifier `b`. -/
def recipientKey : Key := ⟨"a", some .encryption, some "dir", .symmetric (List.replicate 16 9)⟩

def renamedRecipientKey : Key := recipientKey.withId "b"

/-- The renamed keys would verify the signed token and open the encrypted one. -/
theorem decodeBytes_by_id_renamed :
    (∃ token jws, Jws.parse token = .ok jws ∧ jws.verify renamedKey = .ok [0xFF] ∧
      decodeBytes token (.ofKeys [renamedKey, escapedKey]) .empty (.signed (.hmac .sha256)) ⟨5, 6⟩ (.constant 0 0) =
        decodeBytes token (.ofKeys [escapedKey]) .empty (.signed (.hmac .sha256)) ⟨5, 6⟩ (.constant 0 0) ∧
      decodeBytes token (.ofKeys [renamedKey]) .empty (.signed (.hmac .sha256)) ⟨5, 6⟩ (.constant 0 0) =
        .error .noVerificationKey) ∧
    ∃ token jwe, Jwe.parse token = .ok jwe ∧ jwe.decrypt renamedRecipientKey (.constant 0 0) = .ok [0xFF] ∧
      decodeBytes token .empty (.ofKeys [renamedRecipientKey, recipientKey]) .encryptedByKey ⟨5, 6⟩ (.constant 0 0) =
        decodeBytes token .empty (.ofKeys [recipientKey]) .encryptedByKey ⟨5, 6⟩ (.constant 0 0) ∧
      decodeBytes token .empty (.ofKeys [renamedRecipientKey]) .encryptedByKey ⟨5, 6⟩ (.constant 0 0) =
        .error .noDecryptionKey := by
  constructor
  · obtain ⟨token, made⟩ : ∃ token, Jws.signCompact (.hmac .sha256) escapedKey (.constant 3 0) [0xFF] = .ok token :=
      ⟨_, Jws.signCompact_eq_ok.mpr ⟨_, rfl, rfl⟩⟩
    obtain ⟨jws, parsed, header, payload, signed⟩ := Jws.parse_signCompact made
    have named : jws.header.kid = some "\"\n" := congrArg Header.kid header
    have alg : jws.header.alg = (SignatureAlgorithm.hmac .sha256).name := congrArg Header.alg header
    have signedToo : Signature.sign (.hmac .sha256) renamedKey (.constant 3 0) jws.signingInput = .ok jws.signature :=
      signed
    have accepted := Signature.verify_of_sign (Signature.trusted_symmetric _ _) signedToo
    obtain ⟨_, verifying⟩ := decodeBytes_by_id token (.signed (.hmac .sha256)) ⟨5, 6⟩ (.constant 0 0)
    obtain ⟨same, missing⟩ := verifying .empty token jws _ rfl parsed named (by decide)
    refine ⟨token, jws, parsed, ?_, same _ _ (by decide), missing _ rfl (fun _ => ⟨_, rfl, alg⟩) (by decide)⟩
    rw [Jws.verify_of_accepted alg accepted, payload]
  · obtain ⟨token, made⟩ : ∃ token, Jwe.encryptCompact .direct (.gcm .bits128) recipientKey.toPublic
        (.constant 3 0) [0xFF] none = .ok token :=
      Jwe.exists_encryptCompact (KeyManagement.Delivers.direct rfl rfl).deliver rfl
    obtain ⟨delivery, content, delivered, sealed, parsed⟩ := Jwe.parse_encryptCompact made
    have opened := ContentEncryption.openContent_sealContent sealed
    cases KeyManagement.delivers_of_deliver delivered with
    | @direct secret shared sized =>
        have sharedToo : renamedRecipientKey.material = .symmetric secret := shared
        have found : KeyManagement.secretOfLength renamedRecipientKey .direct 16 = .ok secret :=
          KeyManagement.secretOfLength_eq_ok.mpr ⟨sharedToo, sized⟩
        have recovered : KeyManagement.recover .direct (.gcm .bits128) renamedRecipientKey (.constant 0 0) []
            (Delivery.parameters { contentKey := secret, encryptedKey := [] }) = .ok secret := found
        obtain ⟨decrypting, _⟩ := decodeBytes_by_id token .encryptedByKey ⟨5, 6⟩ (.constant 0 0)
        obtain ⟨same, missing⟩ := decrypting _ "a" parsed rfl (by decide)
        exact ⟨token, _, parsed, Jwe.decrypt_of_recovered rfl rfl Jwe.keyParameters_headerOf recovered opened,
          same _ _ _ (by decide), missing _ _ rfl nofun (by decide)⟩

end WebToken.Token
