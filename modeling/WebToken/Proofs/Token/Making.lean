import WebToken.Proofs.Jwe.Shape
import WebToken.Proofs.Jws.RoundTrip
import WebToken.Proofs.Text.Utf8
import WebToken.Token.Encode

/-!
Making a token. Both sources are asked before anything is signed or encrypted, so a source without a key is reported
before all that can go wrong with a key. The stages then run in their order, each if its algorithms are set, and the
form of what comes out tells which of them ran.
-/

namespace WebToken

/-- What a source gave, with other wishes to take an algorithm from the key. -/
def ResolvedKey.asking (resolved : ResolvedKey) (signatureFromKey keyManagementFromKey : Bool) : ResolvedKey :=
  { resolved with suite := { resolved.suite with signatureFromKey, keyManagementFromKey } }

namespace Token

/-- What the signing stage comes to: bytes and whether they are a signed token, or an error. -/
inductive Signs (draws : Draws) (bytes : Bytes) (signer : ResolvedKey) : Except Error (Bytes × Bool) → Prop
  | skipped (unset : signer.suite.signature = none) : Signs draws bytes signer (.ok (bytes, false))
  | noKey {algorithm : SignatureAlgorithm} (set : signer.suite.signature = some algorithm)
      (missing : signer.key = none) : Signs draws bytes signer (.error .noSigningKey)
  | failed {algorithm : SignatureAlgorithm} {key : Key} {cause : Error}
      (set : signer.suite.signature = some algorithm) (given : signer.key = some key)
      (failed : Jws.signCompact algorithm key draws bytes = .error cause) : Signs draws bytes signer (.error cause)
  | signed {algorithm : SignatureAlgorithm} {key : Key} {token : String}
      (set : signer.suite.signature = some algorithm) (given : signer.key = some key)
      (made : Jws.signCompact algorithm key draws bytes = .ok token) :
      Signs draws bytes signer (.ok (Bytes.ofText token, true))

/-- What the encryption stage comes to. It encrypts to the public half of the key, and tells of the content that it
is a token if it was signed. -/
inductive Encrypts (draws : Draws) (bytes : Bytes) (signed : Bool) (recipient : ResolvedKey) :
    Except Error Bytes → Prop
  | skipped (unset : recipient.suite.keyManagement = none ∨ recipient.suite.content = none) :
      Encrypts draws bytes signed recipient (.ok bytes)
  | noKey {algorithm : KeyAlgorithm} {encryption : ContentEncryption}
      (set : recipient.suite.keyManagement = some algorithm) (content : recipient.suite.content = some encryption)
      (missing : recipient.key = none) : Encrypts draws bytes signed recipient (.error .noEncryptionKey)
  | failed {algorithm : KeyAlgorithm} {encryption : ContentEncryption} {key : Key} {cause : Error}
      (set : recipient.suite.keyManagement = some algorithm) (content : recipient.suite.content = some encryption)
      (given : recipient.key = some key)
      (failed : Jwe.encryptCompact algorithm encryption key.toPublic draws bytes
        (if signed then some "JWT" else none) = .error cause) :
      Encrypts draws bytes signed recipient (.error cause)
  | encrypted {algorithm : KeyAlgorithm} {encryption : ContentEncryption} {key : Key} {token : String}
      (set : recipient.suite.keyManagement = some algorithm) (content : recipient.suite.content = some encryption)
      (given : recipient.key = some key)
      (made : Jwe.encryptCompact algorithm encryption key.toPublic draws bytes
        (if signed then some "JWT" else none) = .ok token) :
      Encrypts draws bytes signed recipient (.ok (Bytes.ofText token))

/-- What making a token comes to, by what the two sources give: nothing is signed unless both give something, and
nothing is encrypted if signing fails. -/
inductive Makes (draws : Draws) (payload : Bytes) :
    (signing encryption : Option ResolvedKey) → Except Error Bytes → Prop
  | noSigningKey {encryption : Option ResolvedKey} : Makes draws payload none encryption (.error .noSigningKey)
  | noEncryptionKey {signer : ResolvedKey} : Makes draws payload (some signer) none (.error .noEncryptionKey)
  | unsigned {signer recipient : ResolvedKey} {cause : Error} (failed : Signs draws payload signer (.error cause)) :
      Makes draws payload (some signer) (some recipient) (.error cause)
  | staged {signer recipient : ResolvedKey} {bytes : Bytes} {signed : Bool} {result : Except Error Bytes}
      (signs : Signs draws payload signer (.ok (bytes, signed)))
      (encrypts : Encrypts draws bytes signed recipient result) :
      Makes draws payload (some signer) (some recipient) result

/-- The form of what is made with two suites: an encrypted token that tells whether its content is a signed one, a
signed token, or the payload itself. -/
inductive Formed (signer recipient : Suite) (payload : Bytes) : Bytes → Prop
  | encrypted {algorithm : KeyAlgorithm} {encryption : ContentEncryption} {text : String} {jwe : Jwe}
      (set : recipient.keyManagement = some algorithm) (content : recipient.content = some encryption)
      (parsed : Jwe.parse text = .ok jwe) (segments : (Text.dotted text).length = 5)
      (contentType : jwe.header.cty = if signer.signature.isSome then some "JWT" else none) :
      Formed signer recipient payload (Bytes.ofText text)
  | signed {algorithm : SignatureAlgorithm} {text : String} {jws : Jws}
      (set : signer.signature = some algorithm) (unset : recipient.keyManagement = none ∨ recipient.content = none)
      (parsed : Jws.parse text = .ok jws) (segments : (Text.dotted text).length = 3)
      (carried : jws.payload = payload) : Formed signer recipient payload (Bytes.ofText text)
  | plain (unsigned : signer.signature = none)
      (unset : recipient.keyManagement = none ∨ recipient.content = none) : Formed signer recipient payload payload

variable {signing encryption : KeySource} {signer recipient : ResolvedKey} {seconds : Seconds} {draws : Draws}
  {payload bytes token : Bytes} {signed : Bool}

theorem signStage_eq_iff {result : Except Error (Bytes × Bool)} :
    signStage signer draws bytes = result ↔ Signs draws bytes signer result := by
  constructor
  · rintro rfl
    unfold signStage
    split
    case h_1 unset => exact .skipped unset
    case h_2 algorithm set =>
        cases given : signer.key with
        | none => exact .noKey set given
        | some key =>
            rw [require, ok_bind]
            cases made : Jws.signCompact algorithm key draws bytes with
            | error cause => exact .failed set given made
            | ok token => exact .signed set given made
  · intro signs
    cases signs with
    | skipped unset => simp only [signStage, unset]
    | noKey set missing =>
        simp only [signStage, set, missing, require]
        rfl
    | failed set given failed =>
        simp only [signStage, set, given, require, ok_bind, failed]
        rfl
    | signed set given made =>
        simp only [signStage, set, given, require, ok_bind, made]
        rfl

theorem encryptStage_eq_iff {result : Except Error Bytes} :
    encryptStage recipient draws bytes signed = result ↔ Encrypts draws bytes signed recipient result := by
  constructor
  · rintro rfl
    unfold encryptStage
    split
    case h_1 algorithm encryption set content =>
        cases given : recipient.key with
        | none => exact .noKey set content given
        | some key =>
            rw [require, ok_bind]
            dsimp only
            cases made : Jwe.encryptCompact algorithm encryption key.toPublic draws bytes
                (if signed then some nestedContentType else none) with
            | error cause => exact .failed set content given made
            | ok token => exact .encrypted set content given made
    case h_2 other =>
        refine .skipped ?_
        cases set : recipient.suite.keyManagement with
        | none => exact Or.inl rfl
        | some algorithm =>
            refine Or.inr (Option.eq_none_iff_forall_ne_some.mpr ?_)
            exact fun encryption => other algorithm encryption set
  · intro encrypts
    cases encrypts with
    | skipped unset =>
        unfold encryptStage
        split
        case h_1 algorithm encryption set content => simp [set, content] at unset
        case h_2 => rfl
    | noKey set content missing =>
        simp only [encryptStage, set, content, missing, require]
        rfl
    | failed set content given failed =>
        simp only [encryptStage, set, content, given, require, ok_bind, nestedContentType, failed]
        rfl
    | encrypted set content given made =>
        simp only [encryptStage, set, content, given, require, ok_bind, nestedContentType, made]
        rfl

theorem encodeBytes_eq_iff {result : Except Error Bytes} :
    encodeBytes signing encryption seconds draws payload = result ↔
      Makes draws payload (signing.resolve seconds.signature) (encryption.resolve seconds.encryption) result := by
  unfold encodeBytes
  constructor
  · rintro rfl
    cases signing.resolve seconds.signature with
    | none => exact .noSigningKey
    | some signer =>
        cases encryption.resolve seconds.encryption with
        | none => exact .noEncryptionKey
        | some recipient =>
            rw [require, ok_bind, require, ok_bind]
            cases staged : signStage signer draws payload with
            | error cause => exact .unsigned (signStage_eq_iff.mp staged)
            | ok passed => exact .staged (signStage_eq_iff.mp staged) (encryptStage_eq_iff.mp rfl)
  · generalize signing.resolve seconds.signature = own, encryption.resolve seconds.encryption = other
    intro makes
    cases makes with
    | noSigningKey => rfl
    | noEncryptionKey => rfl
    | unsigned failed =>
        rw [require, ok_bind, require, ok_bind, signStage_eq_iff.mpr failed]
        rfl
    | staged signs encrypts =>
        rw [require, ok_bind, require, ok_bind, signStage_eq_iff.mpr signs, ok_bind]
        exact encryptStage_eq_iff.mpr encrypts

/-- What was signed carries the payload in three segments. -/
theorem formed_of_signCompact {algorithm : SignatureAlgorithm} {key : Key} {text : String} {signing encryption : Suite}
    (set : signing.signature = some algorithm) (unset : encryption.keyManagement = none ∨ encryption.content = none)
    (made : Jws.signCompact algorithm key draws payload = .ok text) :
    Formed signing encryption payload (Bytes.ofText text) := by
  obtain ⟨jws, parsed, _, carried, _⟩ := Jws.parse_signCompact made
  obtain ⟨signature, _, rfl⟩ := Jws.signCompact_eq_ok.mp made
  have cut := Text.dotted_segments (List.cons_ne_nil _ _)
    (Jws.segments_signCompact (Header.ofKey algorithm.name key.id) payload signature)
  exact .signed set unset parsed (by rw [cut]; rfl) carried

theorem formed_of_encryptCompact {algorithm : KeyAlgorithm} {content : ContentEncryption} {key : Key}
    {contentType : Option String} {text : String} {signing encryption : Suite}
    (set : encryption.keyManagement = some algorithm) (setToo : encryption.content = some content)
    (told : contentType = if signing.signature.isSome then some "JWT" else none)
    (made : Jwe.encryptCompact algorithm content key draws bytes contentType = .ok text) :
    Formed signing encryption payload (Bytes.ofText text) := by
  obtain ⟨delivery, found, _, _, parsed⟩ := Jwe.parse_encryptCompact made
  exact .encrypted set setToo parsed (by rw [Jwe.dotted_encryptCompact parsed made]; rfl) told

theorem formed_of_makes (makes : Makes draws payload (some signer) (some recipient) (.ok token)) :
    Formed signer.suite recipient.suite payload token := by
  cases makes with
  | staged signs encrypts =>
      cases signs with
      | skipped unsigned =>
          cases encrypts with
          | skipped unset => exact .plain unsigned unset
          | encrypted set content _ made => exact formed_of_encryptCompact set content (by rw [unsigned]; rfl) made
      | signed signs _ signedText =>
          cases encrypts with
          | skipped unset => exact formed_of_signCompact signs unset signedText
          | encrypted set content _ made => exact formed_of_encryptCompact set content (by rw [signs]; rfl) made

/-- Both sources are asked for their keys before either is used. A signing source without one is reported whatever
the other does, then an encryption source without one, whatever the signing key is worth. After that the stages run
in their order, each if its algorithms are set; a stage without a key fails for that, and nothing is encrypted after a
failed signature. What is made has five segments, and tells of its content whether it is a token, if it was
encrypted, three segments if it was only signed, and is the payload if neither. That a suite asks to take an algorithm
from the key makes no difference. -/
theorem encodeBytes_asks_first (signing encryption : KeySource) (seconds : Seconds) (draws : Draws) (payload : Bytes) :
    (∀ result, encodeBytes signing encryption seconds draws payload = result ↔
      Makes draws payload (signing.resolve seconds.signature) (encryption.resolve seconds.encryption) result) ∧
    ∀ signer recipient, signing.resolve seconds.signature = some signer →
      encryption.resolve seconds.encryption = some recipient →
      (∀ token, encodeBytes signing encryption seconds draws payload = .ok token →
        Formed signer.suite recipient.suite payload token) ∧
      ∀ signatureAsked keyAsked signatureAskedToo keyAskedToo : Bool,
        encodeBytes (.given (some (signer.asking signatureAsked keyAsked)))
            (.given (some (recipient.asking signatureAskedToo keyAskedToo))) seconds draws payload =
          encodeBytes signing encryption seconds draws payload := by
  constructor
  · intro result
    exact encodeBytes_eq_iff
  · intro signer recipient signed encrypted
    constructor
    · intro token made
      have makes := encodeBytes_eq_iff.mp made
      rw [signed, encrypted] at makes
      exact formed_of_makes makes
    · intro signatureAsked keyAsked signatureAskedToo keyAskedToo
      rw [encodeBytes, encodeBytes, signed, encrypted]
      rfl

/-- A key that cannot sign what it is asked to, and one that serves both stages. -/
theorem encodeBytes_asks_first_both :
    let key : Key := .symmetric "a" (List.replicate 32 7)
    let unable : KeySource := .given (some ⟨some key, .signed .eddsa⟩)
    let signing : KeySource := .given (some ⟨some key, .signed (.hmac .sha256)⟩)
    let asking : KeySource := .given (some ⟨some key, { signature := some (.hmac .sha256), signatureFromKey := true }⟩)
    let encryption : KeySource := .given (some ⟨some key, .encrypted .direct (.gcm .bits256)⟩)
    encodeBytes (.given none) encryption ⟨5, 6⟩ (.constant 3 0) [1] = .error .noSigningKey ∧
      encodeBytes unable (.given none) ⟨5, 6⟩ (.constant 3 0) [1] = .error .noEncryptionKey ∧
      ∃ text jwe, encodeBytes signing encryption ⟨5, 6⟩ (.constant 3 0) [1] = .ok (Bytes.ofText text) ∧
        encodeBytes asking encryption ⟨5, 6⟩ (.constant 3 0) [1] = .ok (Bytes.ofText text) ∧
        Jwe.parse text = .ok jwe ∧ (Text.dotted text).length = 5 ∧ jwe.header.cty = some "JWT" := by
  intro key unable signing asking encryption
  obtain ⟨silent, -⟩ := encodeBytes_asks_first (.given none) encryption ⟨5, 6⟩ (.constant 3 0) [1]
  obtain ⟨failing, -⟩ := encodeBytes_asks_first unable (.given none) ⟨5, 6⟩ (.constant 3 0) [1]
  obtain ⟨makes, resolved⟩ := encodeBytes_asks_first signing encryption ⟨5, 6⟩ (.constant 3 0) [1]
  obtain ⟨formed, alike⟩ := resolved _ _ rfl rfl
  obtain ⟨signedText, signed⟩ : ∃ text, Jws.signCompact (.hmac .sha256) key (.constant 3 0) [1] = .ok text :=
    ⟨_, Jws.signCompact_eq_ok.mpr ⟨_, rfl, rfl⟩⟩
  obtain ⟨text, encrypted⟩ : ∃ text, Jwe.encryptCompact .direct (.gcm .bits256) key.toPublic (.constant 3 0)
      (Bytes.ofText signedText) (some "JWT") = .ok text :=
    Jwe.exists_encryptCompact (KeyManagement.Delivers.direct rfl rfl).deliver rfl
  have made := (makes _).mpr (.staged (.signed rfl rfl signed) (.encrypted rfl rfl rfl encrypted))
  have shaped := formed _ made
  refine ⟨(silent _).mpr .noSigningKey, (failing _).mpr .noEncryptionKey, ?_⟩
  generalize same : Bytes.ofText text = token at shaped
  cases shaped with
  | @encrypted algorithm content found jwe _ _ parsed segments contentType =>
      obtain rfl := Utf8.ofText_injective same
      exact ⟨text, jwe, made, (alike true false false false).trans made, parsed, segments, contentType⟩
  | signed _ unset => simp [Suite.encrypted] at unset
  | plain unsigned => cases unsigned

end Token

end WebToken
