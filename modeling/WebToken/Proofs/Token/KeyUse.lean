import WebToken.Proofs.Key.Source
import WebToken.Proofs.Token.Acceptance

/-!
The use that a key declares. A key that is selected by algorithm has the use of its stage, as every key has
that a source gives; a key that a header names by its identifier may declare the other use.
-/

namespace WebToken.Token

open KeySource (Stage)

variable {set verification decryption : KeySet} {header : Header} {use other : KeyUse} {second : Int}
  {seconds : Seconds} {key : Key} {hint : Suite} {token : String} {draws : Draws} {payload : Bytes}

/-- A header names, by its identifier, a key that declares a use. -/
def NamesKeyFor (set : KeySet) (header : Header) (use : KeyUse) : Prop :=
  ∃ id key, header.kid = some id ∧ set.byId? id = some key ∧ key.use = some use

/-- A key has the use of its stage unless the header names it by its identifier. -/
theorem Selects.use_of_unnamed (selected : Selects set header use second key) (unnamed : header.keyId? = none) :
    key.use = some use := by
  cases selected with
  | byId named nonempty =>
      rw [keyId?_eq_some.mpr ⟨named, nonempty⟩] at unnamed
      cases unnamed
  | byAlgorithm _ _ found =>
      obtain ⟨_, used, _⟩ := KeySet.mem_candidates.mp (KeySet.mem_candidates_of_select? found)
      exact used

theorem Selects.use_eq_some_iff (selected : Selects set header use second key) (differs : other ≠ use) :
    key.use = some other ↔ NamesKeyFor set header other := by
  constructor
  · intro used
    cases selected with
    | byId named _ found => exact ⟨_, key, named, found, used⟩
    | byAlgorithm unnamed named found =>
        have own := (Selects.byAlgorithm unnamed named found).use_of_unnamed (keyId?_eq_none.mpr unnamed)
        exact absurd (Option.some.inj (used.symm.trans own)) differs
  · intro ⟨id, named, kid, found, used⟩
    cases selected with
    | byId same _ selected =>
        obtain rfl := Option.some.inj (kid.symm.trans same)
        obtain rfl := Option.some.inj (found.symm.trans selected)
        exact used
    | byAlgorithm unnamed =>
        rw [kid, Option.getD_some] at unnamed
        obtain ⟨nonempty, _⟩ := KeySet.byId?_eq_some.mp found
        exact absurd unnamed nonempty

/-- The stages of a token that decodes, each with the key that it takes. -/
theorem decryptStage_key (encrypts : hint.encrypts = true) {plaintext : Bytes}
    (passed : decryptStage token decryption hint second draws = .ok plaintext) :
    ∃ jwe key, Jwe.parse token = .ok jwe ∧ Selects decryption jwe.header .encryption second key ∧
      jwe.decrypt key draws = .ok plaintext := by
  obtain ⟨jwe, key, parsed, _, selected, _, decrypted⟩ := (decryptStage_eq_ok encrypts).mp passed
  exact ⟨jwe, key, parsed, selected, decrypted⟩

theorem verifyStage_key (signs : hint.signs = true) {bytes : Bytes}
    (passed : verifyStage bytes verification hint second = .ok payload) :
    ∃ text jws key, bytes = Bytes.ofText text ∧ Jws.parse text = .ok jws ∧
      Selects verification jws.header .signature second key ∧ jws.verify key.toPublic = .ok payload := by
  obtain ⟨text, jws, utf8, parsed, verified⟩ := verifyStage_iff_parsed.mp passed
  obtain ⟨_, key, selected, _, accepted⟩ := (verifyParsed_eq_ok signs).mp verified
  exact ⟨text, jws, key, utf8, parsed, selected, (verify_toPublic jws key).trans accepted⟩

/-- Where a token decodes, the key of each stage declares the other use exactly if the header names such a key
by its identifier. A key that is selected by algorithm has the use of its stage, and so has every key that a
source gives when a token is made, by identifier too. -/
theorem decodeBytes_key_use (decoded : decodeBytes token verification decryption hint seconds draws = .ok payload) :
    (hint.encrypts = true → ∃ jwe key plaintext, Jwe.parse token = .ok jwe ∧
      findKey? decryption jwe.header .encryption seconds.encryption = some key ∧ jwe.decrypt key draws = .ok plaintext ∧
      received token decryption hint seconds.encryption draws = .ok plaintext ∧
      (key.use = some .signature ↔ NamesKeyFor decryption jwe.header .signature) ∧
      (jwe.header.keyId? = none → key.use = some .encryption)) ∧
    (hint.signs = true → ∃ text jws key,
      received token decryption hint seconds.encryption draws = .ok (Bytes.ofText text) ∧
      Jws.parse text = .ok jws ∧ findKey? verification jws.header .signature seconds.signature = some key ∧
      jws.verify key.toPublic = .ok payload ∧
      (key.use = some .encryption ↔ NamesKeyFor verification jws.header .encryption) ∧
      (jws.header.keyId? = none → key.use = some .signature)) ∧
    (∀ set source second found key, Stage.signing.Supplies set source → source.resolve second = some found →
      found.key = some key → key.use = some .signature) ∧
    ∀ content set source second found key, (Stage.encryption content).Supplies set source →
      source.resolve second = some found → found.key = some key → key.use = some .encryption := by
  rw [decodeBytes_eq_bind] at decoded
  obtain ⟨bytes, opened, passed⟩ := bind_eq_ok.mp decoded
  refine ⟨?decryption, ?verification, ?signing, ?encryption⟩
  case decryption =>
      intro encrypts
      have decrypted := opened
      rw [received, if_pos encrypts] at decrypted
      obtain ⟨jwe, key, parsed, selected, plain⟩ := decryptStage_key encrypts decrypted
      have found := findKey?_eq_some.mpr selected
      have foreign : key.use = some .signature ↔ NamesKeyFor decryption jwe.header .signature :=
        selected.use_eq_some_iff nofun
      exact ⟨jwe, key, bytes, parsed, found, plain, opened, foreign, selected.use_of_unnamed⟩
  case verification =>
      intro signs
      rw [if_pos signs] at passed
      obtain ⟨text, jws, key, rfl, parsed, selected, verified⟩ := verifyStage_key signs passed
      have found := findKey?_eq_some.mpr selected
      have foreign : key.use = some .encryption ↔ NamesKeyFor verification jws.header .encryption :=
        selected.use_eq_some_iff nofun
      exact ⟨text, jws, key, opened, parsed, found, verified, foreign, selected.use_of_unnamed⟩
  case signing =>
      intro set source second found key supplies resolved given
      have yields := Stage.yields_of_resolve supplies resolved
      exact yields.used given
  case encryption =>
      intro content set source second found key supplies resolved given
      have yields := Stage.yields_of_resolve supplies resolved
      exact yields.used given

/-- A shared secret under an identifier, for a use. -/
def sharedKey (id : String) (use : KeyUse) : Key :=
  ⟨id, some use, some "HS256", .symmetric
    [0x6e, 0x0b, 0x2e, 0xd1, 0xdb, 0x03, 0xaa, 0x7a, 0x9e, 0xf1, 0xc2, 0xcd, 0x50, 0xd3, 0x0f, 0xaf,
      0x80, 0x8c, 0x7e, 0x93, 0xda, 0xc8, 0xda, 0x63, 0x99, 0xac, 0x14, 0xf6, 0xd1, 0x2e, 0xd3, 0xd6]⟩

/-- A token that the shared secret signs, without an identifier in its header. -/
def unnamedToken : String := "eyJhbGciOiJIUzI1NiJ9.eyJuIjoxfQ.zjQSgInerztiC6UJQ5H7q-3jIpx-RuyP06Ssh1a-3Rg"

/-- The same with the identifier `k`. -/
def namedToken : String :=
  "eyJhbGciOiJIUzI1NiIsImtpZCI6ImsifQ.eyJuIjoxfQ.RGiL8QtezeAz2pX3RkIGOLoy4yYi2E4K23VJpt7ZF9c"

/-- The key for signatures is taken, and not the one for encryption that would verify the token too. -/
theorem decodeBytes_key_use_by_algorithm :
    ∃ jws key, decodeBytes unnamedToken (.ofKeys [sharedKey "b" .encryption, sharedKey "a" .signature]) .empty
        (.signed (.hmac .sha256)) ⟨1, 4⟩ (.constant 0 0) = .ok (Bytes.ofText "\x7b\"n\":1\x7d") ∧
      Jws.parse unnamedToken = .ok jws ∧
      jws.verify (sharedKey "b" .encryption) = .ok (Bytes.ofText "\x7b\"n\":1\x7d") ∧
      findKey? (.ofKeys [sharedKey "b" .encryption, sharedKey "a" .signature]) jws.header .signature 1 = some key ∧
      key.use = some .signature := by
  have decoded : decodeBytes unnamedToken (.ofKeys [sharedKey "b" .encryption, sharedKey "a" .signature]) .empty
      (.signed (.hmac .sha256)) ⟨1, 4⟩ (.constant 0 0) = .ok (Bytes.ofText "\x7b\"n\":1\x7d") :=
    ok_of_toOption (by decide +kernel)
  obtain ⟨_, verification, _⟩ := decodeBytes_key_use decoded
  obtain ⟨text, jws, key, utf8, parsed, found, _, _, own⟩ := verification rfl
  obtain rfl : unnamedToken = text := Utf8.ofText_injective (Except.ok.inj utf8)
  have unnamed : (Jws.parse unnamedToken).toOption.bind (·.header.keyId?) = none := by decide +kernel
  have verified : (Jws.parse unnamedToken).toOption.bind
      (fun jws => (jws.verify (sharedKey "b" .encryption)).toOption) = some (Bytes.ofText "\x7b\"n\":1\x7d") := by
    decide +kernel
  rw [parsed] at unnamed verified
  exact ⟨jws, key, decoded, parsed, ok_of_toOption verified, found, own unnamed⟩

/-- A key for encryption verifies a token that names it, though the same key is not found where it is looked up
by algorithm, and no source gives it for a signature. -/
theorem decodeBytes_key_use_disregarded :
    ∃ jws, Jws.parse namedToken = .ok jws ∧
      findKey? (.ofKeys [sharedKey "k" .encryption]) jws.header .signature 0 = some (sharedKey "k" .encryption) ∧
      jws.verify (sharedKey "k" .encryption).toPublic = .ok (Bytes.ofText "\x7b\"n\":1\x7d") ∧
      decodeBytes namedToken (.ofKeys [sharedKey "k" .encryption]) .empty (.signed (.hmac .sha256)) ⟨0, 0⟩
        (.constant 0 0) = .ok (Bytes.ofText "\x7b\"n\":1\x7d") ∧
      decodeBytes unnamedToken (.ofKeys [sharedKey "k" .encryption]) .empty (.signed (.hmac .sha256)) ⟨0, 0⟩
        (.constant 0 0) = .error .noVerificationKey ∧
      (KeySource.signingById "k" (.ofKeys [sharedKey "k" .encryption])).resolve 0 = none := by
  have decoded : decodeBytes namedToken (.ofKeys [sharedKey "k" .encryption]) .empty (.signed (.hmac .sha256)) ⟨0, 0⟩
      (.constant 0 0) = .ok (Bytes.ofText "\x7b\"n\":1\x7d") := ok_of_toOption (by decide +kernel)
  obtain ⟨text, jws, utf8, parsed, passed⟩ := verifyStage_iff_parsed.mp
    ((decodeBytes_of_signs rfl rfl).symm.trans decoded)
  obtain rfl : namedToken = text := Utf8.ofText_injective utf8
  have header : (Jws.parse namedToken).toOption.map (·.header) = some { alg := "HS256", kid := some "k" } := by
    decide +kernel
  rw [parsed] at header
  have named : jws.header = { alg := "HS256", kid := some "k" } := Option.some.inj header
  have found : findKey? (.ofKeys [sharedKey "k" .encryption]) jws.header .signature 0 =
      some (sharedKey "k" .encryption) := by
    rw [named]
    decide
  obtain ⟨_, key, selected, _, verified⟩ := (verifyParsed_eq_ok rfl).mp passed
  obtain rfl := Option.some.inj (found.symm.trans (findKey?_eq_some.mpr selected))
  refine ⟨jws, parsed, found, (verify_toPublic jws _).trans verified, decoded, ?_, by decide⟩
  have unnamed : (Jws.parse unnamedToken).toOption.map (·.header) = some { alg := "HS256" } := by decide +kernel
  obtain ⟨other, given, alone⟩ := Option.map_eq_some_iff.mp unnamed
  rw [decodeBytes_of_signs rfl rfl, verifyStage_of_parse (ok_of_toOption given), verifyParsed, alone]
  rfl

end WebToken.Token
