import WebToken.Proofs.Algorithm
import WebToken.Proofs.Jws.Parsing
import WebToken.Proofs.Signature
import WebToken.Proofs.Token.Stages

/-!
Which tokens open, and to what: a stage passes exactly when the token has its form, names the
pinned algorithms, selects a key that serves them, and the key opens or verifies it.
-/

namespace WebToken.Token

/-- The key that a header selects: by its identifier if it has one, and only then by algorithm. -/
inductive Selects (set : KeySet) (header : Header) (use : KeyUse) (second : Int) (key : Key) : Prop
  | byId {id : String} (named : header.kid = some id) (nonempty : id ≠ "")
      (found : set.byId? id = some key)
  | byAlgorithm (unnamed : header.kid.getD "" = "") (named : header.alg ≠ "")
      (found : set.select? use header.alg second = some key)

/-- A key serves a header if it declares no algorithm or the one that is named. If the key is asked
for the algorithm it must declare one. -/
def Serves (fromKey : Bool) (key : Key) (header : Header) : Prop :=
  (key.algorithm = "" ∧ fromKey = false) ∨ (key.algorithm ≠ "" ∧ key.algorithm = header.alg)

/-- A header names the algorithms for encryption that a suite pins. -/
def NamesEncryption (hint : Suite) (header : Header) : Prop :=
  ∃ algorithm encryption, hint.keyManagement = some algorithm ∧ hint.content = some encryption ∧
    header.alg = algorithm.name ∧ header.enc = some encryption.name

def NamesSignature (hint : Suite) (header : Header) : Prop :=
  ∃ algorithm, hint.signature = some algorithm ∧ header.alg = algorithm.name

inductive Opens (keys : KeySet) (hint : Suite) (second : Int) (draws : Draws) (token : String)
    (plaintext : Bytes) : Prop
  | intro (jwe : Jwe) (key : Key)
      (parsed : Jwe.parse token = .ok jwe)
      (pinned : hint.keyManagementFromKey = false → NamesEncryption hint jwe.header)
      (selected : Selects keys jwe.header .encryption second key)
      (serves : Serves hint.keyManagementFromKey key jwe.header)
      (decrypted : jwe.decrypt key draws = .ok plaintext)

/-- Bytes are a signed token whose signature stands over its first two parts as received, and whose
second part is the payload. -/
inductive Verifies (keys : KeySet) (hint : Suite) (second : Int) (token payload : Bytes) : Prop
  | intro (text : String) (parts : Jws.Parts) (header : Header) (signature : Bytes) (key : Key)
      (algorithm : SignatureAlgorithm)
      (utf8 : token = Bytes.ofText text)
      (carried : Jws.Carries text parts)
      (merged : Jws.mergedHeader parts.protectedText parts.unprotectedHeader = .ok header)
      (pinned : hint.signatureFromKey = false → NamesSignature hint header)
      (selected : Selects keys header .signature second key)
      (serves : Serves hint.signatureFromKey key header)
      (registered : header.alg = algorithm.name)
      (signed : Base64Url.decode? parts.signature = some signature)
      (accepted : Signature.verify algorithm key
        (Bytes.ofText (parts.protectedText ++ "." ++ parts.payload)) signature = .ok ())
      (carries : Base64Url.decode? parts.payload = some payload)

variable {set : KeySet} {header : Header} {use : KeyUse} {second : Int} {key : Key} {hint : Suite}

theorem keyId?_eq_some {id : String} : header.keyId? = some id ↔ header.kid = some id ∧ id ≠ "" := by
  simp [Header.keyId?, Option.filter_eq_some_iff]

theorem keyId?_eq_none : header.keyId? = none ↔ header.kid.getD "" = "" := by
  cases named : header.kid <;> simp [Header.keyId?, named, Option.filter]

theorem findKey?_eq_some :
    findKey? set header use second = some key ↔ Selects set header use second key := by
  unfold findKey?
  split
  case h_1 id named =>
      obtain ⟨kid, nonempty⟩ := keyId?_eq_some.mp named
      constructor
      · intro found
        exact .byId kid nonempty found
      · intro given
        rcases given with ⟨other, _, found⟩ | ⟨unnamed, _, _⟩
        · rw [kid] at other
          cases other
          exact found
        · rw [keyId?_eq_none.mpr unnamed] at named
          cases named
  case h_2 unnamed =>
      have absent := keyId?_eq_none.mp unnamed
      constructor
      · intro found
        split at found
        · cases found
        · rename_i nonempty
          exact .byAlgorithm absent (by simpa using nonempty) found
      · intro given
        rcases given with ⟨named, nonempty, _⟩ | ⟨_, nonempty, found⟩
        · rw [named] at absent
          exact absurd absent nonempty
        · rw [if_neg (by simpa using nonempty)]
          exact found

theorem checkName_eq_ok {expected found : String} :
    checkName expected found = .ok () ↔ found = expected := by
  unfold checkName
  split <;> simp [*]

theorem checkDeclared_eq_ok :
    checkDeclared key header = .ok () ↔ key.algorithm = "" ∨ key.algorithm = header.alg := by
  unfold checkDeclared
  split <;> simp_all

theorem checkKey_eq_ok {fromKey : Bool} :
    checkKey fromKey key header = .ok () ↔ Serves fromKey key header := by
  cases fromKey with
  | false =>
      have checked : checkKey false key header = checkDeclared key header := rfl
      rw [checked, checkDeclared_eq_ok, Serves]
      by_cases declares : key.algorithm = "" <;> simp [declares]
  | true =>
      have checked : checkKey true key header = requireDeclared key header := rfl
      rw [checked, requireDeclared, Serves]
      by_cases declares : key.algorithm = ""
      · simp [declares]
      · simp [declares, checkDeclared_eq_ok]

theorem checkEncryption_eq_ok (encrypts : hint.encrypts = true) :
    checkEncryption hint header = .ok () ↔
      (hint.keyManagementFromKey = false → NamesEncryption hint header) := by
  cases fromKey : hint.keyManagementFromKey with
  | true => simp [checkEncryption, fromKey]
  | false =>
      have pinned : hint.keyManagement.isSome = true ∧ hint.content.isSome = true := by
        simpa [Suite.encrypts, fromKey] using encrypts
      obtain ⟨algorithm, keyManagement⟩ := Option.isSome_iff_exists.mp pinned.1
      obtain ⟨encryption, content⟩ := Option.isSome_iff_exists.mp pinned.2
      have present : header.enc.getD "" = encryption.name ↔ header.enc = some encryption.name := by
        cases header.enc with
        | none => simpa using (ContentEncryption.name_ne_empty encryption).symm
        | some name => simp
      rw [checkEncryption, fromKey, if_neg Bool.false_ne_true, check_bind_eq_ok, keyManagement, content]
      simp only [checkName_eq_ok, Option.map_some, Option.getD_some, present, NamesEncryption]
      constructor
      · intro given _
        obtain ⟨named, encrypted⟩ := given
        exact ⟨algorithm, encryption, keyManagement, content, named, encrypted⟩
      · intro names
        obtain ⟨_, _, sameAlgorithm, sameEncryption, named, encrypted⟩ := names trivial
        cases keyManagement.symm.trans sameAlgorithm
        cases content.symm.trans sameEncryption
        exact ⟨named, encrypted⟩

theorem checkSignature_eq_ok (signs : hint.signs = true) :
    checkSignature hint header = .ok () ↔
      (hint.signatureFromKey = false → NamesSignature hint header) := by
  cases fromKey : hint.signatureFromKey with
  | true => simp [checkSignature, fromKey]
  | false =>
      have pinned : hint.signature.isSome = true := by simpa [Suite.signs, fromKey] using signs
      obtain ⟨algorithm, signature⟩ := Option.isSome_iff_exists.mp pinned
      rw [checkSignature, fromKey, if_neg Bool.false_ne_true, checkName_eq_ok, signature]
      simp [NamesSignature, signature]

theorem decryptParsed_eq_ok {draws : Draws} {jwe : Jwe} {plaintext : Bytes} (encrypts : hint.encrypts = true) :
    decryptParsed set hint second draws jwe = .ok plaintext ↔
      (hint.keyManagementFromKey = false → NamesEncryption hint jwe.header) ∧
        ∃ key, Selects set jwe.header .encryption second key ∧ Serves hint.keyManagementFromKey key jwe.header ∧
          jwe.decrypt key draws = .ok plaintext := by
  constructor
  · intro passed
    obtain ⟨_, pinned, passed⟩ := bind_eq_ok.mp passed
    obtain ⟨key, selected, passed⟩ := bind_eq_ok.mp passed
    obtain ⟨_, serves, decrypted⟩ := bind_eq_ok.mp passed
    exact ⟨(checkEncryption_eq_ok encrypts).mp pinned, key, findKey?_eq_some.mp (require_eq_ok.mp selected),
      checkKey_eq_ok.mp serves, decrypted⟩
  · rintro ⟨pinned, key, selected, serves, decrypted⟩
    rw [decryptParsed, (checkEncryption_eq_ok encrypts).mpr pinned, ok_bind, findKey?_eq_some.mpr selected,
      require, ok_bind, checkKey_eq_ok.mpr serves, ok_bind, decrypted]

theorem decryptStage_eq_ok {token : String} {draws : Draws} {plaintext : Bytes}
    (encrypts : hint.encrypts = true) :
    decryptStage token set hint second draws = .ok plaintext ↔
      Opens set hint second draws token plaintext := by
  simp only [decryptStage_iff_parsed, decryptParsed_eq_ok encrypts]
  constructor
  · rintro ⟨jwe, parsed, pinned, key, selected, serves, decrypted⟩
    exact ⟨jwe, key, parsed, pinned, selected, serves, decrypted⟩
  · rintro ⟨jwe, key, parsed, pinned, selected, serves, decrypted⟩
    exact ⟨jwe, parsed, pinned, key, selected, serves, decrypted⟩

theorem verify_eq_ok {jws : Jws} {payload : Bytes} :
    jws.verify key = .ok payload ↔
      ∃ algorithm : SignatureAlgorithm, jws.header.alg = algorithm.name ∧
        Signature.verify algorithm key jws.signingInput jws.signature = .ok () ∧
        jws.payload = payload := by
  constructor
  · intro passed
    obtain ⟨algorithm, named, passed⟩ := bind_eq_ok.mp passed
    obtain ⟨_, accepted, passed⟩ := bind_eq_ok.mp passed
    exact ⟨algorithm, (SignatureAlgorithm.ofName?_eq_some.mp (require_eq_ok.mp named)).symm, accepted,
      Except.ok.inj passed⟩
  · intro given
    obtain ⟨algorithm, named, accepted, rfl⟩ := given
    rw [Jws.verify, SignatureAlgorithm.ofName?_eq_some.mpr named.symm, require, ok_bind, accepted]
    rfl

/-- A key and its public half verify the same tokens. -/
theorem verify_toPublic (jws : Jws) (key : Key) : jws.verify key.toPublic = jws.verify key := by
  simp only [Jws.verify, Signature.verify_toPublic]

theorem verifyParsed_eq_ok {jws : Jws} {payload : Bytes} (signs : hint.signs = true) :
    verifyParsed set hint second jws = .ok payload ↔
      (hint.signatureFromKey = false → NamesSignature hint jws.header) ∧
        ∃ key, Selects set jws.header .signature second key ∧ Serves hint.signatureFromKey key jws.header ∧
          jws.verify key = .ok payload := by
  constructor
  · intro passed
    obtain ⟨_, pinned, passed⟩ := bind_eq_ok.mp passed
    obtain ⟨key, selected, passed⟩ := bind_eq_ok.mp passed
    obtain ⟨_, serves, verified⟩ := bind_eq_ok.mp passed
    rw [verify_toPublic] at verified
    exact ⟨(checkSignature_eq_ok signs).mp pinned, key, findKey?_eq_some.mp (require_eq_ok.mp selected),
      checkKey_eq_ok.mp serves, verified⟩
  · rintro ⟨pinned, key, selected, serves, verified⟩
    rw [verifyParsed, (checkSignature_eq_ok signs).mpr pinned, ok_bind, findKey?_eq_some.mpr selected, require,
      ok_bind, checkKey_eq_ok.mpr serves, ok_bind, verify_toPublic, verified]

theorem verifyStage_eq_ok {token payload : Bytes} (signs : hint.signs = true) :
    verifyStage token set hint second = .ok payload ↔ Verifies set hint second token payload := by
  simp only [verifyStage_iff_parsed, verifyParsed_eq_ok signs]
  constructor
  · rintro ⟨text, jws, utf8, parsed, pinned, key, selected, serves, verified⟩
    obtain ⟨parts, carried, made⟩ := Jws.parse_eq_ok.mp parsed
    obtain ⟨algorithm, registered, accepted, rfl⟩ := verify_eq_ok.mp verified
    rw [made.signingInput] at accepted
    exact ⟨text, parts, jws.header, jws.signature, key, algorithm, utf8, carried, made.header, pinned, selected,
      serves, registered, made.signature, accepted, made.payload⟩
  · rintro ⟨text, parts, header, signature, key, algorithm, utf8, carried, merged, pinned, selected, serves,
      registered, signed, accepted, carries⟩
    have parsed : Jws.parse text =
        .ok ⟨header, Bytes.ofText (Jws.inputText parts.protectedText parts.payload), payload, signature⟩ :=
      Jws.parse_eq_ok.mpr ⟨parts, carried, merged, rfl, carries, signed⟩
    exact ⟨text, _, utf8, parsed, pinned, key, selected, serves,
      verify_eq_ok.mpr ⟨algorithm, registered, accepted, rfl⟩⟩

/-- A token decodes to a payload exactly when it opens, if it is to be decrypted, to bytes that
verify, if a signature is to be verified, as a signed token with that payload. -/
theorem decodeBytes_eq_ok {token : String} {verification decryption : KeySet} {seconds : Seconds} {draws : Draws}
    {payload : Bytes} :
    decodeBytes token verification decryption hint seconds draws = .ok payload ↔
      ∃ received : Bytes,
        (if hint.encrypts then Opens decryption hint seconds.encryption draws token received
          else received = Bytes.ofText token) ∧
        (if hint.signs then Verifies verification hint seconds.signature received payload
          else payload = received) := by
  have signing (received : Bytes) :
      (if hint.signs then verifyStage received verification hint seconds.signature else .ok received) = .ok payload ↔
        (if hint.signs then Verifies verification hint seconds.signature received payload
          else payload = received) := by
    cases signs : hint.signs with
    | true => exact verifyStage_eq_ok signs
    | false => simp [eq_comm]
  unfold decodeBytes
  cases encrypts : hint.encrypts with
  | true => simp only [if_true, bind_eq_ok, decryptStage_eq_ok encrypts, signing]
  | false => simp only [Bool.false_eq_true, if_false, ok_bind, signing, exists_eq_left]

end WebToken.Token
