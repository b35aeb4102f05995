import WebToken.Proofs.Jwe.RoundTrip
import WebToken.Proofs.Jws.RoundTrip
import WebToken.Proofs.Key.Source
import WebToken.Proofs.Token.Acceptance
import WebToken.Token.Encode

/-!
The whole codec: what is made with keys of two sets is opened with the same sets, although the keys
are found by other rules then. A verification key may also come from the public set.
-/

namespace WebToken.Token

open KeySource (Stage)

/-- The suite that undoes the stages of two others. The algorithms of a stage are pinned, or the key
is asked for them. -/
def undoing (signed encrypted : Suite) (signatureByKey encryptionByKey : Bool) : Suite where
  signature := if signatureByKey then none else signed.signature
  keyManagement := if encryptionByKey then none else encrypted.keyManagement
  content := if encryptionByKey then none else encrypted.content
  signatureFromKey := signatureByKey && signed.signature.isSome
  keyManagementFromKey := encryptionByKey && encrypted.keyManagement.isSome

variable {keys : KeySet} {key : Key} {header : Header} {use : KeyUse} {hint : Suite} {second : Int}
  {seconds moments : Seconds} {draws later : Draws} {plaintext payload bytes : Bytes} {token : String}

theorem selects_of_addressed (addressed : keys.Addressed key) (present : key ∈ keys.keys) (used : key.use = some use)
    (named : header.alg = key.algorithm) (declares : key.algorithm ≠ "")
    (identified : header.kid = if key.id = "" then none else some key.id) :
    Selects keys header use second key := by
  by_cases empty : key.id = ""
  · rcases addressed with named' | only
    · exact absurd empty named'
    · have unnamed : header.kid = none := identified.trans (if_pos empty)
      refine .byAlgorithm ?_ (named ▸ declares) ?_
      · rw [unnamed, Option.getD_none]
      · rw [named]
        exact KeySet.select?_of_only present used only second
  · exact .byId (identified.trans (if_neg empty)) empty (KeySet.byId?_eq_some.mpr ⟨empty, present, rfl⟩)

theorem opens_encryptCompact {algorithm : KeyAlgorithm} {encryption : ContentEncryption}
    {contentType : Option String} (addressed : keys.Addressed key) (present : key ∈ keys.keys)
    (used : key.use = some .encryption) (declared : key.algorithm = algorithm.name) (hidden : key.isPublic = false)
    (trusted : KeyManagement.Trusted algorithm key.material)
    (pinned : hint.keyManagementFromKey = false →
      hint.keyManagement = some algorithm ∧ hint.content = some encryption)
    (made : Jwe.encryptCompact algorithm encryption key.toPublic draws plaintext contentType = .ok token) :
    Opens keys hint second later token plaintext := by
  obtain ⟨delivery, content, delivered, contentMade, parsed⟩ := Jwe.parse_encryptCompact made
  have describes : Jwe.Describes algorithm encryption key.id contentType
      (Jwe.headerOf algorithm encryption key.toPublic delivery contentType) :=
    Jwe.headerOf_describes (KeyManagement.delivers_of_deliver delivered).carries
  have declares : key.algorithm ≠ "" := declared ▸ algorithm.name_ne_empty
  have named := describes.alg.trans declared.symm
  refine ⟨_, key, parsed, fun asked => ?_, ?_, Or.inr ⟨declares, named.symm⟩, ?_⟩
  · obtain ⟨keyManagement, contentPinned⟩ := pinned asked
    exact ⟨algorithm, encryption, keyManagement, contentPinned, describes.alg, describes.enc⟩
  · exact selects_of_addressed addressed present used named declares describes.kid
  · exact Jwe.decrypt_delivered hidden trusted delivered contentMade later

/-- A token that a key signed verifies with any set that tells the key, or its public half, from
others. -/
theorem verifyStage_signCompact {algorithm : SignatureAlgorithm} {holder : Key}
    (half : holder = key ∨ holder = key.toPublic) (addressed : keys.Addressed holder)
    (present : holder ∈ keys.keys) (used : key.use = some .signature) (declared : key.algorithm = algorithm.name)
    (trusted : Signature.Trusted algorithm key.material) (signs : hint.signs = true)
    (pinned : hint.signatureFromKey = false → hint.signature = some algorithm)
    (made : Jws.signCompact algorithm key draws payload = .ok token) :
    verifyStage (Bytes.ofText token) keys hint second = .ok payload := by
  obtain ⟨jws, parsed, header, rfl, signed⟩ := Jws.parse_signCompact made
  obtain ⟨id, use, declaring⟩ :
      holder.id = key.id ∧ holder.use = key.use ∧ holder.algorithm = key.algorithm := by
    rcases half with rfl | rfl
    · exact ⟨rfl, rfl, rfl⟩
    · exact ⟨rfl, rfl, rfl⟩
  have accepted : Signature.verify algorithm holder jws.signingInput jws.signature = .ok () := by
    rcases half with rfl | rfl
    · exact Signature.verify_of_sign trusted signed
    · rw [Signature.verify_toPublic]
      exact Signature.verify_of_sign trusted signed
  have alg : jws.header.alg = algorithm.name := congrArg Header.alg header
  have kid : jws.header.kid = if holder.id = "" then none else some holder.id := by
    rw [header, Header.ofKey, id]
    by_cases empty : key.id = "" <;> simp [empty]
  have declares : holder.algorithm ≠ "" := by
    rw [declaring, declared]
    exact algorithm.name_ne_empty
  have named : jws.header.alg = holder.algorithm := by rw [alg, declaring, declared]
  have selected : Selects keys jws.header .signature second holder :=
    selects_of_addressed addressed present (use.trans used) named declares kid
  have serves : Serves hint.signatureFromKey holder jws.header := Or.inr ⟨declares, named.symm⟩
  have names : hint.signatureFromKey = false → NamesSignature hint jws.header :=
    fun asked => ⟨algorithm, pinned asked, alg⟩
  rw [verifyStage_of_parse parsed, verifyParsed_eq_ok signs]
  exact ⟨names, holder, selected, serves, Jws.verify_of_accepted alg accepted⟩

/-- A set that holds the verification keys, or the public halves of them if the signing key has one. -/
def Publishes (published verification : KeySet) (signer : ResolvedKey) : Prop :=
  published = verification ∨
    published = verification.toPublic ∧ ∀ key, signer.key = some key → key.isSymmetric = false

theorem undo_signStage {verification published : KeySet} {signer : ResolvedKey} {signed : Bool}
    (yields : Stage.signing.Yields verification signer)
    (sound : ∀ key algorithm, signer.key = some key → signer.suite.signature = some algorithm →
      verification.Addressed key ∧ Signature.Trusted algorithm key.material)
    (publishes : Publishes published verification signer)
    (made : signStage signer draws payload = .ok (bytes, signed))
    (encrypted : Suite) (signatureByKey encryptionByKey : Bool) :
    (if (undoing signer.suite encrypted signatureByKey encryptionByKey).signs then
        verifyStage bytes published (undoing signer.suite encrypted signatureByKey encryptionByKey) second
      else .ok bytes) = .ok payload := by
  cases yields with
  | nothing =>
      have skipped : (undoing {} encrypted signatureByKey encryptionByKey).signs = false := by
        cases signatureByKey <;> rfl
      obtain ⟨rfl, _⟩ := Prod.mk.inj (Except.ok.inj made)
      rw [skipped]
      rfl
  | gives gives =>
      obtain @⟨key, algorithm, present, used, declares⟩ := gives
      obtain ⟨addressed, trusted⟩ := sound key algorithm rfl rfl
      have declared := Stage.declared_eq_some.mp declares
      obtain ⟨_, found, made⟩ := bind_eq_ok.mp made
      obtain ⟨token, signedText, given⟩ := bind_eq_ok.mp made
      obtain rfl := Except.ok.inj found
      obtain ⟨rfl, _⟩ := Prod.mk.inj (Except.ok.inj given)
      have signs : (undoing (.signed algorithm) encrypted signatureByKey encryptionByKey).signs = true := by
        cases signatureByKey <;> rfl
      have pinned : (undoing (.signed algorithm) encrypted signatureByKey encryptionByKey).signatureFromKey = false →
          (undoing (.signed algorithm) encrypted signatureByKey encryptionByKey).signature = some algorithm := by
        cases signatureByKey with
        | false => exact fun _ => rfl
        | true => nofun
      refine (if_pos signs).trans ?_
      rcases publishes with rfl | ⟨rfl, asymmetric⟩
      · exact verifyStage_signCompact (Or.inl rfl) addressed present used declared trusted signs pinned signedText
      · have there : key.toPublic ∈ verification.toPublic.keys :=
          KeySet.mem_keys_toPublic.mpr ⟨key, present, asymmetric key rfl, rfl⟩
        exact verifyStage_signCompact (Or.inr rfl) addressed.toPublic there used declared trusted signs pinned
          signedText

theorem undo_encryptStage {decryption : KeySet} {recipient : ResolvedKey} {content : ContentEncryption}
    {contentSigned : Bool} {result : Bytes} (yields : (Stage.encryption content).Yields decryption recipient)
    (sound : ∀ key algorithm, recipient.key = some key → recipient.suite.keyManagement = some algorithm →
      decryption.Addressed key ∧ key.isPublic = false ∧ KeyManagement.Trusted algorithm key.material)
    (readable : recipient.key = none → ∃ text, Bytes.ofText text = bytes)
    (made : encryptStage recipient draws bytes contentSigned = .ok result) :
    ∃ text, Bytes.ofText text = result ∧
      ∀ (signed : Suite) (signatureByKey encryptionByKey : Bool) (second : Int) (later : Draws),
        (if (undoing signed recipient.suite signatureByKey encryptionByKey).encrypts then
            decryptStage text decryption (undoing signed recipient.suite signatureByKey encryptionByKey) second later
          else .ok (Bytes.ofText text)) = .ok bytes := by
  cases yields with
  | nothing =>
      obtain ⟨text, rfl⟩ := readable rfl
      obtain rfl := Except.ok.inj made
      refine ⟨text, rfl, fun signed signatureByKey encryptionByKey second later => ?_⟩
      have skipped : (undoing signed {} signatureByKey encryptionByKey).encrypts = false := by
        cases encryptionByKey <;> rfl
      rw [skipped]
      rfl
  | gives gives =>
      obtain @⟨key, algorithm, present, used, declares⟩ := gives
      obtain ⟨addressed, hidden, trusted⟩ := sound key algorithm rfl rfl
      have declared := Stage.declared_eq_some.mp declares
      obtain ⟨_, found, made⟩ := bind_eq_ok.mp made
      obtain ⟨token, made, given⟩ := bind_eq_ok.mp made
      obtain rfl := Except.ok.inj found
      refine ⟨token, Except.ok.inj given, fun signed signatureByKey encryptionByKey second later => ?_⟩
      have encrypts :
          (undoing signed (.encrypted algorithm content) signatureByKey encryptionByKey).encrypts = true := by
        cases encryptionByKey <;> rfl
      refine (if_pos encrypts).trans ((decryptStage_eq_ok encrypts).mpr ?_)
      refine opens_encryptCompact addressed present used declared hidden trusted ?_ made
      cases encryptionByKey with
      | false => exact fun _ => ⟨rfl, rfl⟩
      | true => nofun

theorem decodeBytes_of_stages {verification decryption : KeySet}
    (opened : (if hint.encrypts then decryptStage token decryption hint moments.encryption later
      else .ok (Bytes.ofText token)) = .ok bytes)
    (verified : (if hint.signs then verifyStage bytes verification hint moments.signature else .ok bytes) =
      .ok payload) :
    decodeBytes token verification decryption hint moments later = .ok payload := by
  unfold decodeBytes
  split at opened
  case isTrue encrypts =>
      rw [if_pos encrypts, opened, ok_bind]
      exact verified
  case isFalse skipped =>
      rw [if_neg skipped, opened, ok_bind]
      exact verified

theorem text_of_signStage {verification : KeySet} {signer : ResolvedKey} {signed : Bool}
    (yields : Stage.signing.Yields verification signer) (made : signStage signer draws payload = .ok (bytes, signed))
    (readable : signer.key = none → ∃ text, Bytes.ofText text = payload) : ∃ text, Bytes.ofText text = bytes := by
  cases yields with
  | nothing =>
      obtain ⟨rfl, _⟩ := Prod.mk.inj (Except.ok.inj made)
      exact readable rfl
  | gives gives =>
      obtain ⟨_, _, _⟩ := gives
      obtain ⟨_, _, made⟩ := bind_eq_ok.mp made
      obtain ⟨token, _, given⟩ := bind_eq_ok.mp made
      exact ⟨token, (Prod.mk.inj (Except.ok.inj given)).1⟩

/-- What is made with keys of two sets is text, if a stage ran or the payload is, and decodes to its
payload with the same sets, whenever the two stages are undone and whatever is drawn then: both if the
suite pins the algorithms and if it asks the keys for them. The keys are private or shared, and each can be
told from the others of its set. -/
theorem decodeBytes_encodeBytes {verification decryption published : KeySet} {signing encryption : KeySource}
    {content : ContentEncryption} {signer recipient : ResolvedKey} {result : Bytes}
    (signs : Stage.signing.Supplies verification signing)
    (encrypts : (Stage.encryption content).Supplies decryption encryption)
    (signed : signing.resolve seconds.signature = some signer)
    (encrypted : encryption.resolve seconds.encryption = some recipient)
    (signerSound : ∀ key algorithm, signer.key = some key → signer.suite.signature = some algorithm →
      verification.Addressed key ∧ Signature.Trusted algorithm key.material)
    (recipientSound : ∀ key algorithm, recipient.key = some key → recipient.suite.keyManagement = some algorithm →
      decryption.Addressed key ∧ key.isPublic = false ∧ KeyManagement.Trusted algorithm key.material)
    (readable : signer.key = none → recipient.key = none → ∃ text, Bytes.ofText text = payload)
    (publishes : Publishes published verification signer)
    (made : encodeBytes signing encryption seconds draws payload = .ok result) :
    ∃ token, Bytes.ofText token = result ∧
      ∀ (signatureByKey encryptionByKey : Bool) (moments : Seconds) (later : Draws),
        decodeBytes token published decryption (undoing signer.suite recipient.suite signatureByKey encryptionByKey)
          moments later = .ok payload := by
  rw [encodeBytes, signed, encrypted, require, ok_bind, require, ok_bind] at made
  obtain ⟨⟨bytes, contentSigned⟩, signStaged, made⟩ := bind_eq_ok.mp made
  have signerGiven := Stage.yields_of_resolve signs signed
  have recipientGiven := Stage.yields_of_resolve encrypts encrypted
  have text (skipped : recipient.key = none) : ∃ text, Bytes.ofText text = bytes :=
    text_of_signStage signerGiven signStaged fun unsigned => readable unsigned skipped
  obtain ⟨token, same, decrypted⟩ := undo_encryptStage recipientGiven recipientSound text made
  refine ⟨token, same, fun signatureByKey encryptionByKey moments later => ?_⟩
  refine decodeBytes_of_stages (decrypted _ signatureByKey encryptionByKey moments.encryption later) ?_
  exact undo_signStage signerGiven signerSound publishes signStaged recipient.suite signatureByKey encryptionByKey

/-- A shared key for signatures whose identifier has to be escaped. -/
def escapedKey : Key := ⟨"\"\n", some .signature, some "HS256", .symmetric (List.replicate 32 7)⟩

/-- Both stages with RSA keys, one that its identifier finds and one that its algorithm finds, and the public set for
the verifier. -/
theorem decodeBytes_encodeBytes_nested :
    ∃ result token, encodeBytes (.signingById "\"\n" (.ofKeys [Jws.rsaSigningKey]))
        (.encryptionByAlgorithm (.rsaOaep .sha256) (.gcm .bits128) (.ofKeys [Jwe.rsaRecipientKey])) ⟨5, 6⟩
        (.constant 3 0) [0xFF] = .ok result ∧
      Bytes.ofText token = result ∧
      decodeBytes token (KeySet.ofKeys [Jws.rsaSigningKey]).toPublic (.ofKeys [Jwe.rsaRecipientKey])
        (undoing (.signed (.pkcs1 .sha256)) (.encrypted (.rsaOaep .sha256) (.gcm .bits128)) false true) ⟨9, 4⟩
        (.constant 0 0) = .ok [0xFF] := by
  have signed : (KeySource.signingById "\"\n" (.ofKeys [Jws.rsaSigningKey])).resolve 5 =
      some ⟨some Jws.rsaSigningKey, .signed (.pkcs1 .sha256)⟩ := rfl
  have encrypted : (KeySource.encryptionByAlgorithm (.rsaOaep .sha256) (.gcm .bits128)
      (.ofKeys [Jwe.rsaRecipientKey])).resolve 6 =
      some ⟨some Jwe.rsaRecipientKey, .encrypted (.rsaOaep .sha256) (.gcm .bits128)⟩ := rfl
  obtain ⟨text, signedText⟩ := Jws.exists_signCompact_rsaSigningKey (.constant 3 0) [0xFF]
  obtain ⟨result, encryptedText⟩ :=
    Jwe.exists_encryptCompact_rsaRecipientKey (.constant 3 0) (Bytes.ofText text) (some nestedContentType)
  have made : encodeBytes (.signingById "\"\n" (.ofKeys [Jws.rsaSigningKey]))
      (.encryptionByAlgorithm (.rsaOaep .sha256) (.gcm .bits128) (.ofKeys [Jwe.rsaRecipientKey])) ⟨5, 6⟩
      (.constant 3 0) [0xFF] = .ok (Bytes.ofText result) := by
    have signStaged : signStage ⟨some Jws.rsaSigningKey, .signed (.pkcs1 .sha256)⟩ (.constant 3 0) [0xFF] =
        .ok (Bytes.ofText text, true) := by
      rw [signStage, Suite.signed]
      simp only [require, ok_bind, signedText]
      rfl
    rw [encodeBytes, signed, encrypted, require, ok_bind, require, ok_bind, signStaged, ok_bind]
    simp only [encryptStage, Suite.encrypted, require, ok_bind, if_true, encryptedText]
    rfl
  have signerSound : ∀ key algorithm, some Jws.rsaSigningKey = some key → some (.pkcs1 .sha256) = some algorithm →
      (KeySet.ofKeys [Jws.rsaSigningKey]).Addressed key ∧ Signature.Trusted algorithm key.material := by
    rintro _ _ ⟨⟩ ⟨⟩
    exact ⟨Or.inl (by decide), Jws.trusted_rsaSigningKey _⟩
  have recipientSound : ∀ key algorithm, some Jwe.rsaRecipientKey = some key →
      some (KeyAlgorithm.rsaOaep .sha256) = some algorithm →
      (KeySet.ofKeys [Jwe.rsaRecipientKey]).Addressed key ∧ key.isPublic = false ∧
        KeyManagement.Trusted algorithm key.material := by
    rintro _ _ ⟨⟩ ⟨⟩
    refine ⟨Or.inr ?_, rfl, Jwe.trusted_rsaRecipientKey _⟩
    intro other present _ _
    exact List.mem_singleton.mp present
  have publishes : Publishes (KeySet.ofKeys [Jws.rsaSigningKey]).toPublic (.ofKeys [Jws.rsaSigningKey])
      ⟨some Jws.rsaSigningKey, .signed (.pkcs1 .sha256)⟩ := by
    refine Or.inr ⟨rfl, ?_⟩
    rintro _ ⟨⟩
    rfl
  obtain ⟨token, same, decoded⟩ := decodeBytes_encodeBytes (.asks (.byId _)) (.asks (.byAlgorithm _)) signed encrypted
    signerSound recipientSound (fun unsigned => absurd unsigned (Option.some_ne_none _)) publishes made
  exact ⟨_, token, made, same, decoded false true ⟨9, 4⟩ (.constant 0 0)⟩

end WebToken.Token
