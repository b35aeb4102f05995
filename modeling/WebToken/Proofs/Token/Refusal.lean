import WebToken.Proofs.Jwe.RoundTrip
import WebToken.Proofs.Jws.RoundTrip
import WebToken.Proofs.Token.Acceptance

/-!
Why a token is not opened. A stage looks at the form of the token first, then at the algorithms that its header
names, then for a key, at what the key declares, and does no cryptography before all that. What is refused for its
form or for the algorithms that it names is refused alike whatever the keys are.
-/

namespace WebToken.Token

/-- The first of several names that is not the expected one. -/
inductive Misnamed : List (String × String) → Error → Prop
  | here {expected found : String} {others : List (String × String)} (differs : found ≠ expected) :
      Misnamed ((expected, found) :: others) (.algorithmMismatch expected found)
  | later {name : String} {others : List (String × String)} {cause : Error} (misnamed : Misnamed others cause) :
      Misnamed ((name, name) :: others) cause

def Named (names : List (String × String)) : Prop := ∀ pair ∈ names, pair.2 = pair.1

/-- The names that a suite pins, and those that a header has in their places. -/
def encryptionNames (hint : Suite) (header : Header) : List (String × String) :=
  if hint.keyManagementFromKey then []
  else [((hint.keyManagement.map KeyAlgorithm.name).getD "", header.alg),
    ((hint.content.map ContentEncryption.name).getD "", header.enc.getD "")]

def signatureNames (hint : Suite) (header : Header) : List (String × String) :=
  if hint.signatureFromKey then [] else [((hint.signature.map SignatureAlgorithm.name).getD "", header.alg)]

/-- A key declares another algorithm than a header names, or none where it is asked for one. -/
inductive Misdeclares (fromKey : Bool) (key : Key) (header : Header) : Error → Prop
  | nothing (asked : fromKey = true) (empty : key.algorithm = "") :
      Misdeclares fromKey key header (.invalidKey (.declaresNothing key.id header.alg))
  | other (declares : key.algorithm ≠ "") (differs : key.algorithm ≠ header.alg) :
      Misdeclares fromKey key header (.algorithmMismatch key.algorithm header.alg)

/-- Why a stage refuses a token that has its form, with the checks in their order: each cause stands behind all
checks before it. -/
inductive Refused (names : List (String × String)) (selects : Key → Prop) (absent : Error) (fromKey : Bool)
    (header : Header) (opening : Key → Except Error Bytes) : Error → Prop
  | misnamed {cause : Error} (misnamed : Misnamed names cause) :
      Refused names selects absent fromKey header opening cause
  | noKey (named : Named names) (missing : ∀ key, ¬selects key) :
      Refused names selects absent fromKey header opening absent
  | misdeclared {key : Key} {cause : Error} (named : Named names) (selected : selects key)
      (misdeclares : Misdeclares fromKey key header cause) :
      Refused names selects absent fromKey header opening cause
  | failed {key : Key} {cause : Error} (named : Named names) (selected : selects key)
      (serves : Serves fromKey key header) (failed : opening key = .error cause) :
      Refused names selects absent fromKey header opening cause

/-- Why a token is not decrypted. -/
inductive Closed (keys : KeySet) (hint : Suite) (second : Int) (draws : Draws) (token : String) : Error → Prop
  | malformed {flaw : TokenFlaw} (unparsed : Jwe.parse token = .error flaw) :
      Closed keys hint second draws token (.invalidToken flaw)
  | refused {jwe : Jwe} {cause : Error} (parsed : Jwe.parse token = .ok jwe)
      (refused : Refused (encryptionNames hint jwe.header) (Selects keys jwe.header .encryption second)
        .noDecryptionKey hint.keyManagementFromKey jwe.header (fun key => jwe.decrypt key draws) cause) :
      Closed keys hint second draws token cause

/-- Why bytes are not verified as a signed token. -/
inductive Unverified (keys : KeySet) (hint : Suite) (second : Int) (token : Bytes) : Error → Prop
  | notUtf8 (foreign : ∀ text, token ≠ Bytes.ofText text) :
      Unverified keys hint second token (.invalidToken .signedNotUtf8)
  | malformed {text : String} {flaw : TokenFlaw} (utf8 : token = Bytes.ofText text)
      (unparsed : Jws.parse text = .error flaw) : Unverified keys hint second token (.invalidToken flaw)
  | refused {text : String} {jws : Jws} {cause : Error} (utf8 : token = Bytes.ofText text)
      (parsed : Jws.parse text = .ok jws)
      (refused : Refused (signatureNames hint jws.header) (Selects keys jws.header .signature second)
        .noVerificationKey hint.signatureFromKey jws.header jws.verify cause) :
      Unverified keys hint second token cause

variable {token text : String} {keys verification decryption : KeySet} {hint : Suite} {second : Int}
  {seconds : Seconds} {draws : Draws} {header : Header} {key : Key} {cause : Error} {names : List (String × String)}

theorem checkName_eq_error {expected found : String} :
    checkName expected found = .error cause ↔ found ≠ expected ∧ .algorithmMismatch expected found = cause := by
  unfold checkName
  split <;> simp [*]

def checkNames : List (String × String) → Except Error Unit
  | [] => .ok ()
  | (expected, found) :: others => do
      checkName expected found
      checkNames others

theorem checkNames_eq_ok : checkNames names = .ok () ↔ Named names := by
  induction names with
  | nil => exact ⟨fun _ => nofun, fun _ => rfl⟩
  | cons pair names ih =>
      rw [checkNames, check_bind_eq_ok, ih, checkName_eq_ok, Named, Named, List.forall_mem_cons]

/-- Names that are checked one after the other are refused for the first of them that is not as expected. -/
theorem checkNames_eq_error : checkNames names = .error cause ↔ Misnamed names cause := by
  induction names with
  | nil => exact ⟨nofun, nofun⟩
  | cons pair names ih =>
      rw [checkNames, check_bind_eq_error]
      constructor
      · rintro (first | ⟨first, rest⟩)
        · obtain ⟨differs, rfl⟩ := checkName_eq_error.mp first
          exact .here differs
        · obtain ⟨expected, found⟩ := pair
          obtain rfl : found = expected := checkName_eq_ok.mp first
          exact .later (ih.mp rest)
      · intro misnamed
        cases misnamed with
        | here differs => exact Or.inl (checkName_eq_error.mpr ⟨differs, rfl⟩)
        | later misnamed => exact Or.inr ⟨checkName_eq_ok.mpr rfl, ih.mpr misnamed⟩

theorem checkEncryption_eq_checkNames : checkEncryption hint header = checkNames (encryptionNames hint header) := by
  unfold checkEncryption encryptionNames
  split
  · rfl
  · exact congrArg (checkName _ _ >>= ·) (funext fun _ => (bind_pure _).symm)

theorem checkSignature_eq_checkNames : checkSignature hint header = checkNames (signatureNames hint header) := by
  unfold checkSignature signatureNames
  split
  · rfl
  · exact (bind_pure _).symm

theorem checkDeclared_eq_error :
    checkDeclared key header = .error cause ↔
      (key.algorithm ≠ "" ∧ key.algorithm ≠ header.alg) ∧ .algorithmMismatch key.algorithm header.alg = cause := by
  unfold checkDeclared
  split
  case isTrue passes =>
      simp only [Bool.or_eq_true, String.isEmpty_iff, beq_iff_eq] at passes
      exact ⟨nofun, fun ⟨⟨declares, differs⟩, _⟩ => (passes.elim declares differs).elim⟩
  case isFalse fails =>
      simp only [Bool.or_eq_true, String.isEmpty_iff, beq_iff_eq, not_or] at fails
      simp only [Except.error.injEq, fails, ne_eq, not_false_eq_true, and_self, true_and]

theorem checkKey_eq_error {fromKey : Bool} :
    checkKey fromKey key header = .error cause ↔ Misdeclares fromKey key header cause := by
  constructor
  · intro refused
    cases fromKey with
    | false =>
        obtain ⟨⟨declares, differs⟩, rfl⟩ := checkDeclared_eq_error.mp refused
        exact .other declares differs
    | true =>
        simp only [checkKey, requireDeclared, String.isEmpty_iff, if_true] at refused
        split at refused
        · rename_i empty
          obtain rfl := Except.error.inj refused
          exact .nothing rfl empty
        · obtain ⟨⟨declares, differs⟩, rfl⟩ := checkDeclared_eq_error.mp refused
          exact .other declares differs
  · intro misdeclares
    cases misdeclares with
    | nothing asked empty => simp only [checkKey, requireDeclared, asked, empty, String.isEmpty_iff, if_true]
    | other declares differs =>
        have refused := checkDeclared_eq_error.mpr ⟨⟨declares, differs⟩, rfl⟩
        cases fromKey with
        | false => exact refused
        | true => simp only [checkKey, requireDeclared, declares, String.isEmpty_iff, if_true, if_false, refused]

/-- What both stages do with a token that has its form. -/
def guarded (names : List (String × String)) (found : Option Key) (absent : Error) (fromKey : Bool) (header : Header)
    (opening : Key → Except Error Bytes) : Except Error Bytes := do
  checkNames names
  let key ← require absent found
  checkKey fromKey key header
  opening key

theorem decryptParsed_eq_guarded {jwe : Jwe} :
    decryptParsed keys hint second draws jwe =
      guarded (encryptionNames hint jwe.header) (findKey? keys jwe.header .encryption second) .noDecryptionKey
        hint.keyManagementFromKey jwe.header fun key => jwe.decrypt key draws := by
  rw [decryptParsed, checkEncryption_eq_checkNames]
  rfl

theorem verifyParsed_eq_guarded {jws : Jws} :
    verifyParsed keys hint second jws =
      guarded (signatureNames hint jws.header) (findKey? keys jws.header .signature second) .noVerificationKey
        hint.signatureFromKey jws.header jws.verify := by
  simp only [verifyParsed, checkSignature_eq_checkNames, verify_toPublic]
  rfl

theorem guarded_eq_error {found : Option Key} {selects : Key → Prop} {absent : Error} {fromKey : Bool}
    {opening : Key → Except Error Bytes} (selected : ∀ key, found = some key ↔ selects key) :
    guarded names found absent fromKey header opening = .error cause ↔
      Refused names selects absent fromKey header opening cause := by
  have missing : found = none ↔ ∀ key, ¬selects key := by
    simp only [← selected, Option.eq_none_iff_forall_ne_some, ne_eq]
  rw [guarded, check_bind_eq_error, checkNames_eq_error, checkNames_eq_ok, bind_eq_error]
  simp only [check_bind_eq_error, require_eq_error, require_eq_ok, checkKey_eq_error, checkKey_eq_ok, missing, selected]
  constructor
  · rintro (misnamed | ⟨named, ⟨none, rfl⟩ | ⟨key, own, misdeclares | ⟨serves, failed⟩⟩⟩)
    · exact .misnamed misnamed
    · exact .noKey named none
    · exact .misdeclared named own misdeclares
    · exact .failed named own serves failed
  · intro refused
    cases refused with
    | misnamed misnamed => exact Or.inl misnamed
    | noKey named none => exact Or.inr ⟨named, Or.inl ⟨none, rfl⟩⟩
    | misdeclared named own misdeclares => exact Or.inr ⟨named, Or.inr ⟨_, own, Or.inl misdeclares⟩⟩
    | failed named own serves failed => exact Or.inr ⟨named, Or.inr ⟨_, own, Or.inr ⟨serves, failed⟩⟩⟩

theorem decryptStage_eq_error :
    decryptStage token keys hint second draws = .error cause ↔ Closed keys hint second draws token cause := by
  have parsed : decryptStage token keys hint second draws =
      (Jwe.parse token).mapError .invalidToken >>= decryptParsed keys hint second draws := rfl
  rw [parsed, bind_eq_error, mapError_eq_error]
  simp only [mapError_eq_ok, decryptParsed_eq_guarded, guarded_eq_error fun _ => findKey?_eq_some]
  constructor
  · rintro (⟨flaw, unparsed, rfl⟩ | ⟨jwe, parsed, refused⟩)
    · exact .malformed unparsed
    · exact .refused parsed refused
  · intro closed
    cases closed with
    | malformed unparsed => exact Or.inl ⟨_, unparsed, rfl⟩
    | refused parsed refused => exact Or.inr ⟨_, parsed, refused⟩

theorem verifyStage_eq_error {bytes : Bytes} :
    verifyStage bytes keys hint second = .error cause ↔ Unverified keys hint second bytes cause := by
  have parsed : verifyStage bytes keys hint second = require (.invalidToken .signedNotUtf8) (Utf8.decode? bytes) >>=
      fun text => (Jws.parse text).mapError .invalidToken >>= verifyParsed keys hint second := rfl
  have foreign : Utf8.decode? bytes = none ↔ ∀ text, bytes ≠ Bytes.ofText text := by
    simp only [Option.eq_none_iff_forall_ne_some, ne_eq, Utf8.decode?_eq_some_iff]
  rw [parsed, bind_eq_error, require_eq_error]
  simp only [require_eq_ok, Utf8.decode?_eq_some_iff, foreign, bind_eq_error, mapError_eq_error, mapError_eq_ok,
    verifyParsed_eq_guarded, guarded_eq_error fun _ => findKey?_eq_some]
  constructor
  · rintro (⟨foreign, rfl⟩ | ⟨text, utf8, ⟨flaw, unparsed, rfl⟩ | ⟨jws, parsed, refused⟩⟩)
    · exact .notUtf8 foreign
    · exact .malformed utf8 unparsed
    · exact .refused utf8 parsed refused
  · intro unverified
    cases unverified with
    | notUtf8 foreign => exact Or.inl ⟨foreign, rfl⟩
    | malformed utf8 unparsed => exact Or.inr ⟨_, utf8, Or.inl ⟨_, unparsed, rfl⟩⟩
    | refused utf8 parsed refused => exact Or.inr ⟨_, utf8, Or.inr ⟨_, parsed, refused⟩⟩

/-- A token is refused by the stage that decrypts, or by the stage that verifies what was decrypted. -/
theorem decodeBytes_eq_error :
    decodeBytes token verification decryption hint seconds draws = .error cause ↔
      (hint.encrypts = true ∧ Closed decryption hint seconds.encryption draws token cause) ∨
        ∃ received, (if hint.encrypts then Opens decryption hint seconds.encryption draws token received
            else received = Bytes.ofText token) ∧
          hint.signs = true ∧ Unverified verification hint seconds.signature received cause := by
  have signing (bytes : Bytes) :
      (if hint.signs then verifyStage bytes verification hint seconds.signature else .ok bytes) = .error cause ↔
        hint.signs = true ∧ Unverified verification hint seconds.signature bytes cause := by
    cases signs : hint.signs with
    | true => simp only [if_true, verifyStage_eq_error, true_and]
    | false => simp
  unfold decodeBytes
  cases encrypts : hint.encrypts with
  | true => simp only [if_true, bind_eq_error, decryptStage_eq_error, decryptStage_eq_ok encrypts, signing, true_and]
  | false => simp only [Bool.false_eq_true, if_false, ok_bind, signing, false_and, false_or, exists_eq_left]

/-- A token is refused for one cause with all keys, in any second and whatever is drawn. -/
def RefusedOutright (hint : Suite) (token : String) (cause : Error) : Prop :=
  ∀ (verification decryption : KeySet) (seconds : Seconds) (draws : Draws),
    decodeBytes token verification decryption hint seconds draws = .error cause

theorem refusedOutright_of_closed (encrypts : hint.encrypts = true)
    (closed : ∀ keys second draws, Closed keys hint second draws token cause) : RefusedOutright hint token cause := by
  intro verification decryption seconds draws
  exact decodeBytes_eq_error.mpr (Or.inl ⟨encrypts, closed decryption seconds.encryption draws⟩)

theorem refusedOutright_of_unverified (plain : hint.encrypts = false) (signs : hint.signs = true)
    (unverified : ∀ keys second, Unverified keys hint second (Bytes.ofText token) cause) :
    RefusedOutright hint token cause := by
  intro verification decryption seconds draws
  have opened : received token decryption hint seconds.encryption draws = .ok (Bytes.ofText token) := by
    rw [received, plain, if_neg Bool.false_ne_true]
  rw [decodeBytes_of_signs signs opened]
  exact verifyStage_eq_error.mpr (unverified verification seconds.signature)

section Pinned

variable {algorithm : KeyAlgorithm} {encryption : ContentEncryption} {signing : SignatureAlgorithm}

theorem encryptionNames_pinned (pinned : hint.keyManagementFromKey = false)
    (keyManagement : hint.keyManagement = some algorithm) (content : hint.content = some encryption) :
    encryptionNames hint header = [(algorithm.name, header.alg), (encryption.name, header.enc.getD "")] := by
  simp only [encryptionNames, pinned, keyManagement, content, Bool.false_eq_true, if_false, Option.map_some,
    Option.getD_some]

theorem signatureNames_pinned (pinned : hint.signatureFromKey = false) (signature : hint.signature = some signing) :
    signatureNames hint header = [(signing.name, header.alg)] := by
  simp only [signatureNames, pinned, signature, Bool.false_eq_true, if_false, Option.map_some, Option.getD_some]

/-- No encryption has the empty name that a missing one counts as. -/
theorem enc_getD_ne (differs : header.enc ≠ some encryption.name) : header.enc.getD "" ≠ encryption.name := by
  intro same
  cases present : header.enc with
  | none =>
      rw [present] at same
      exact encryption.name_ne_empty same.symm
  | some name =>
      rw [present] at same differs
      exact differs (congrArg some same)

end Pinned

theorem decodeBytes_undeclared_encryption {jwe : Jwe} (asked : hint.keyManagementFromKey = true)
    (parsed : Jwe.parse token = .ok jwe) (selected : Selects decryption jwe.header .encryption seconds.encryption key)
    (nothing : key.algorithm = "") :
    decodeBytes token verification decryption hint seconds draws =
      .error (.invalidKey (.declaresNothing key.id jwe.header.alg)) := by
  have encrypts : hint.encrypts = true := by rw [Suite.encrypts, asked, Bool.or_true]
  have names : Named (encryptionNames hint jwe.header) := by
    rw [encryptionNames, if_pos asked]
    exact List.forall_mem_nil _
  exact decodeBytes_eq_error.mpr
    (Or.inl ⟨encrypts, .refused parsed (.misdeclared names selected (.nothing asked nothing))⟩)

theorem decodeBytes_undeclared_signature {jws : Jws} (asked : hint.signatureFromKey = true)
    (opened : received token decryption hint seconds.encryption draws = .ok (Bytes.ofText text))
    (parsed : Jws.parse text = .ok jws) (selected : Selects verification jws.header .signature seconds.signature key)
    (nothing : key.algorithm = "") :
    decodeBytes token verification decryption hint seconds draws =
      .error (.invalidKey (.declaresNothing key.id jws.header.alg)) := by
  have signs : hint.signs = true := by rw [Suite.signs, asked, Bool.or_true]
  have names : Named (signatureNames hint jws.header) := by
    rw [signatureNames, if_pos asked]
    exact List.forall_mem_nil _
  rw [decodeBytes_of_signs signs opened]
  exact verifyStage_eq_error.mpr (.refused rfl parsed (.misdeclared names selected (.nothing asked nothing)))

/-- A token is refused for the first check that fails: of its form, of the names in its header, of the key, of what
the key declares, and then of the cryptography. -/
structure RefusesInOrder (hint : Suite) (token : String) : Prop where
  order : ∀ (verification decryption : KeySet) (seconds : Seconds) (draws : Draws) (cause : Error),
    decodeBytes token verification decryption hint seconds draws = .error cause ↔
      (hint.encrypts = true ∧ Closed decryption hint seconds.encryption draws token cause) ∨
        ∃ received, (if hint.encrypts then Opens decryption hint seconds.encryption draws token received
            else received = Bytes.ofText token) ∧
          hint.signs = true ∧ Unverified verification hint seconds.signature received cause
  /-- The keys have no part in what the first stage says of the form of a token. -/
  sealedMalformed : hint.encrypts = true → ∀ flaw, Jwe.parse token = .error flaw →
    RefusedOutright hint token (.invalidToken flaw)
  /-- Nor have they in what it says of the names that a suite pins. -/
  keyManagementMisnamed : hint.encrypts = true → ∀ jwe algorithm encryption, Jwe.parse token = .ok jwe →
    hint.keyManagementFromKey = false → hint.keyManagement = some algorithm → hint.content = some encryption →
      jwe.header.alg ≠ algorithm.name →
        RefusedOutright hint token (.algorithmMismatch algorithm.name jwe.header.alg)
  contentMisnamed : hint.encrypts = true → ∀ jwe algorithm encryption, Jwe.parse token = .ok jwe →
    hint.keyManagementFromKey = false → hint.keyManagement = some algorithm → hint.content = some encryption →
      jwe.header.alg = algorithm.name → jwe.header.enc ≠ some encryption.name →
        RefusedOutright hint token (.algorithmMismatch encryption.name (jwe.header.enc.getD ""))
  signedMalformed : hint.encrypts = false → hint.signs = true → ∀ flaw, Jws.parse token = .error flaw →
    RefusedOutright hint token (.invalidToken flaw)
  signatureMisnamed : hint.encrypts = false → hint.signs = true → ∀ jws algorithm, Jws.parse token = .ok jws →
    hint.signatureFromKey = false → hint.signature = some algorithm → jws.header.alg ≠ algorithm.name →
      RefusedOutright hint token (.algorithmMismatch algorithm.name jws.header.alg)
  /-- Where a key is asked for its algorithm and declares none, that is what a token is refused for. -/
  undeclaredEncryption : ∀ (jwe : Jwe) (verification decryption : KeySet) (seconds : Seconds) (draws : Draws)
      (key : Key), hint.keyManagementFromKey = true → Jwe.parse token = .ok jwe →
    Selects decryption jwe.header .encryption seconds.encryption key → key.algorithm = "" →
      decodeBytes token verification decryption hint seconds draws =
        .error (.invalidKey (.declaresNothing key.id jwe.header.alg))
  undeclaredSignature : ∀ (text : String) (jws : Jws) (verification decryption : KeySet) (seconds : Seconds)
      (draws : Draws) (key : Key), hint.signatureFromKey = true →
    received token decryption hint seconds.encryption draws = .ok (Bytes.ofText text) → Jws.parse text = .ok jws →
    Selects verification jws.header .signature seconds.signature key → key.algorithm = "" →
      decodeBytes token verification decryption hint seconds draws =
        .error (.invalidKey (.declaresNothing key.id jws.header.alg))

theorem decodeBytes_refuses_in_order (hint : Suite) (token : String) : RefusesInOrder hint token := by
  constructor
  case order => exact fun _ _ _ _ _ => decodeBytes_eq_error
  case sealedMalformed =>
      intro encrypts flaw unparsed
      exact refusedOutright_of_closed encrypts fun _ _ _ => .malformed unparsed
  case keyManagementMisnamed =>
      intro encrypts jwe algorithm encryption parsed pinned keyManagement content differs
      have names : encryptionNames hint jwe.header =
          [(algorithm.name, jwe.header.alg), (encryption.name, jwe.header.enc.getD "")] :=
        encryptionNames_pinned pinned keyManagement content
      exact refusedOutright_of_closed encrypts fun _ _ _ => .refused parsed (.misnamed (names ▸ .here differs))
  case contentMisnamed =>
      intro encrypts jwe algorithm encryption parsed pinned keyManagement content named differs
      have names : encryptionNames hint jwe.header =
          [(algorithm.name, jwe.header.alg), (encryption.name, jwe.header.enc.getD "")] :=
        encryptionNames_pinned pinned keyManagement content
      have later : Misnamed (encryptionNames hint jwe.header)
          (.algorithmMismatch encryption.name (jwe.header.enc.getD "")) :=
        names ▸ named ▸ .later (.here (enc_getD_ne differs))
      exact refusedOutright_of_closed encrypts fun _ _ _ => .refused parsed (.misnamed later)
  case signedMalformed =>
      intro plain signs flaw unparsed
      exact refusedOutright_of_unverified plain signs fun _ _ => .malformed rfl unparsed
  case signatureMisnamed =>
      intro plain signs jws algorithm parsed pinned signature differs
      have misnamed : Misnamed (signatureNames hint jws.header) (.algorithmMismatch algorithm.name jws.header.alg) :=
        signatureNames_pinned pinned signature ▸ .here differs
      exact refusedOutright_of_unverified plain signs fun _ _ => .refused rfl parsed (.misnamed misnamed)
  case undeclaredEncryption =>
      intro jwe verification decryption seconds draws key asked parsed selected nothing
      exact decodeBytes_undeclared_encryption asked parsed selected nothing
  case undeclaredSignature =>
      intro text jws verification decryption seconds draws key asked opened parsed selected nothing
      exact decodeBytes_undeclared_signature asked opened parsed selected nothing

/-- A key that declares no algorithm. -/
def silentKey : Key := .symmetric "a" (List.replicate 32 7)

def sealedHeader : Header := { alg := "dir", enc := some "A128GCM", kid := some "a" }

def signedHeader : Header := { alg := "HS256", kid := some "a" }

/-- Two tokens under one key that declares nothing, neither of which is sound, and a text that is no token. -/
theorem decodeBytes_refuses_in_order_silent :
    ∃ sealedToken signedToken,
      RefusedOutright (.encrypted .direct (.gcm .bits128)) "a" (.invalidToken .encryptedSegments) ∧
      RefusedOutright (.encrypted .rsaPkcs1 (.gcm .bits192)) sealedToken (.algorithmMismatch "RSA1_5" "dir") ∧
      RefusedOutright (.encrypted .direct (.gcm .bits192)) sealedToken (.algorithmMismatch "A192GCM" "A128GCM") ∧
      RefusedOutright (.signed .eddsa) "a" (.invalidToken .signedSegments) ∧
      RefusedOutright (.signed .eddsa) signedToken (.algorithmMismatch "EdDSA" "HS256") ∧
      decodeBytes sealedToken .empty (.ofKeys [silentKey]) .encryptedByKey ⟨5, 6⟩ (.constant 0 0) =
        .error (.invalidKey (.declaresNothing "a" "dir")) ∧
      decodeBytes signedToken (.ofKeys [silentKey]) .empty .signedByKey ⟨5, 6⟩ (.constant 0 0) =
        .error (.invalidKey (.declaresNothing "a" "HS256")) ∧
      decodeBytes signedToken .empty .empty (.signed (.hmac .sha256)) ⟨5, 6⟩ (.constant 0 0) =
        .error .noVerificationKey := by
  have sealedCounted : sealedHeader.Counted := by
    intro count there
    cases there
  have signedCounted : signedHeader.Counted := by
    intro count there
    cases there
  obtain ⟨sealedToken, jwe, sealedParsed, sealedNames⟩ :
      ∃ token jwe, Jwe.parse token = .ok jwe ∧ jwe.header = sealedHeader :=
    ⟨_, _, Jwe.parse_segments sealedCounted rfl (Option.some_ne_none _) [] ⟨[], [], []⟩, rfl⟩
  obtain ⟨signedToken, jws, signedParsed, signedNames⟩ :
      ∃ token jws, Jws.parse token = .ok jws ∧ jws.header = signedHeader :=
    ⟨_, _, Jws.parse_segments signedCounted rfl [] [], rfl⟩
  have cut : Text.dotted (Text.trim "a") = ["a"] := by decide +kernel
  have plain : Jws.looksLikeDocument (Text.trim "a") = false := by decide +kernel
  have noEncryption : Jwe.parse "a" = .error .encryptedSegments := by rw [Jwe.parse, cut]
  have noSignature : Jws.parse "a" = .error .signedSegments := by
    simp only [Jws.parse, plain, Bool.false_eq_true, if_false, Jws.ofCompact, cut]
  have selected : Selects (.ofKeys [silentKey]) jwe.header .encryption 6 silentKey :=
    sealedNames ▸ .byId rfl (by decide) (by decide)
  have verifying : Selects (.ofKeys [silentKey]) jws.header .signature 5 silentKey :=
    signedNames ▸ .byId rfl (by decide) (by decide)
  refine ⟨sealedToken, signedToken, ?malformed, ?keyManagement, ?content, ?unsigned, ?signature, ?sealedSilent,
    ?signedSilent, ?missing⟩
  case malformed => exact (decodeBytes_refuses_in_order _ _).sealedMalformed rfl _ noEncryption
  case keyManagement =>
      have refused := (decodeBytes_refuses_in_order (.encrypted .rsaPkcs1 (.gcm .bits192)) _).keyManagementMisnamed rfl
        jwe .rsaPkcs1 (.gcm .bits192) sealedParsed rfl rfl rfl
      simp only [sealedNames] at refused
      exact refused (by decide)
  case content =>
      have refused := (decodeBytes_refuses_in_order (.encrypted .direct (.gcm .bits192)) _).contentMisnamed rfl jwe
        .direct (.gcm .bits192) sealedParsed rfl rfl rfl
      simp only [sealedNames] at refused
      exact refused rfl (by decide)
  case unsigned => exact (decodeBytes_refuses_in_order _ _).signedMalformed rfl rfl _ noSignature
  case signature =>
      have refused := (decodeBytes_refuses_in_order (.signed .eddsa) _).signatureMisnamed rfl rfl jws .eddsa
        signedParsed rfl rfl
      simp only [signedNames] at refused
      exact refused (by decide)
  case sealedSilent =>
      have refused := (decodeBytes_refuses_in_order .encryptedByKey sealedToken).undeclaredEncryption jwe .empty
        (.ofKeys [silentKey]) ⟨5, 6⟩ (.constant 0 0) silentKey rfl sealedParsed selected rfl
      simp only [sealedNames] at refused
      exact refused
  case signedSilent =>
      have refused := (decodeBytes_refuses_in_order .signedByKey signedToken).undeclaredSignature signedToken jws
        (.ofKeys [silentKey]) .empty ⟨5, 6⟩ (.constant 0 0) silentKey rfl rfl signedParsed verifying rfl
      simp only [signedNames] at refused
      exact refused
  case missing =>
      refine ((decodeBytes_refuses_in_order _ _).order _ _ _ _ _).mpr (Or.inr ⟨_, rfl, rfl, ?_⟩)
      refine .refused rfl signedParsed (.noKey ?_ ?_)
      · rw [signedNames]
        exact checkNames_eq_ok.mp rfl
      · rintro key (⟨named, _, found⟩ | ⟨_, _, found⟩)
        · obtain rfl : "a" = _ := Option.some.inj ((congrArg Header.kid signedNames).symm.trans named)
          cases found
        · cases List.getElem?_nil.symm.trans found

end WebToken.Token
