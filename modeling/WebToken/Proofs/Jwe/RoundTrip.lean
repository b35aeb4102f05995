import WebToken.Proofs.Algorithm
import WebToken.Proofs.Content
import WebToken.Proofs.Header
import WebToken.Proofs.Jwe.Parsing
import WebToken.Proofs.KeyManagement
import WebToken.Proofs.Rsa.Key
import WebToken.Proofs.Text.Segment

/-!
Encrypted tokens as made: what `encryptCompact` gives parses as a token whose header tells how it was
made, and the private or shared key decrypts it.
-/

namespace WebToken.Jwe

/-- A header tells how a token was made, and nothing else. -/
structure Describes (algorithm : KeyAlgorithm) (encryption : ContentEncryption) (id : String)
    (contentType : Option String) (header : Header) : Prop where
  alg : header.alg = algorithm.name
  enc : header.enc = some encryption.name
  kid : header.kid = if id = "" then none else some id
  cty : header.cty = contentType
  epk : header.epk.isSome = true ↔ ∃ wrap, algorithm = .agreement wrap
  /-- An ephemeral key has public members only. -/
  ephemeral : ∀ jwk, header.epk = some jwk →
    ∃ curve x y, jwk = { kty := "EC", crv := some curve, x := some x, y := some y }
  iv : header.iv.isSome = true ↔ ∃ size, algorithm = .gcmWrap size
  tag : header.tag.isSome = true ↔ ∃ size, algorithm = .gcmWrap size
  p2s : header.p2s.isSome = true ↔ ∃ size, algorithm = .password size
  p2c : header.p2c.isSome = true ↔ ∃ size, algorithm = .password size
  typ : header.typ = none
  apu : header.apu = none
  apv : header.apv = none
  crit : header.crit = none

variable {algorithm : KeyAlgorithm} {encryption : ContentEncryption} {key : Key} {draws : Draws}
  {plaintext : Bytes} {contentType : Option String} {delivery : Delivery} {token : String}

theorem headerOf_describes (carries : KeyManagement.Carries algorithm delivery) :
    Describes algorithm encryption key.id contentType (headerOf algorithm encryption key delivery contentType) where
  alg := rfl
  enc := rfl
  kid := by
    rw [headerOf, Header.ofKey]
    by_cases empty : key.id = "" <;> simp [empty]
  cty := rfl
  epk := by
    rw [headerOf, Option.isSome_map]
    exact carries.ephemeral
  ephemeral := by
    intro jwk present
    obtain ⟨material, there, rfl⟩ := Option.map_eq_some_iff.mp present
    obtain ⟨curve, point, rfl⟩ := carries.point material there
    exact ⟨curve.name, _, _, rfl⟩
  iv := by
    rw [headerOf, Option.isSome_map]
    exact carries.iv
  tag := by
    rw [headerOf, Option.isSome_map]
    exact carries.tag
  p2s := by
    rw [headerOf, Option.isSome_map]
    exact carries.salt
  p2c := carries.iterations
  typ := rfl
  apu := rfl
  apv := rfl
  crit := rfl

theorem headerOf_counted (carries : KeyManagement.Carries algorithm delivery) :
    (headerOf algorithm encryption key delivery contentType).Counted := by
  intro count present
  rw [carries.count count present]
  decide

theorem optionalPart_map_encode (name : String) (bytes : Option Bytes) :
    optionalPart name (bytes.map Base64Url.encode) = .ok bytes := by
  cases bytes with
  | none => rfl
  | some bytes =>
      rw [Option.map_some, optionalPart, partBytes, Base64Url.decode?_encode]
      rfl

theorem keyParameters_headerOf :
    keyParameters (headerOf algorithm encryption key delivery contentType) = .ok delivery.parameters := by
  have nothing (name : String) : optionalPart name none = .ok none := rfl
  simp only [keyParameters, headerOf, Header.ofKey, nothing, optionalPart_map_encode, ok_bind]
  rfl

theorem encryptCompact_eq_ok :
    encryptCompact algorithm encryption key draws plaintext contentType = .ok token ↔
      ∃ delivery content, KeyManagement.deliver algorithm encryption key draws = .ok delivery ∧
        encryption.sealContent draws delivery.contentKey
          (Bytes.ofText (headerOf algorithm encryption key delivery contentType).encode) plaintext = .ok content ∧
        Text.joinDotted [(headerOf algorithm encryption key delivery contentType).encode,
          Base64Url.encode delivery.encryptedKey, Base64Url.encode content.iv,
          Base64Url.encode content.ciphertext, Base64Url.encode content.tag] = token := by
  simp only [encryptCompact, bind_eq_ok]
  constructor
  · intro given
    obtain ⟨delivery, delivered, content, made, joined⟩ := given
    exact ⟨delivery, content, delivered, made, Except.ok.inj joined⟩
  · intro given
    obtain ⟨delivery, content, delivered, made, rfl⟩ := given
    exact ⟨delivery, delivered, content, made, rfl⟩

theorem exists_encryptCompact (delivered : KeyManagement.deliver algorithm encryption key draws = .ok delivery)
    (sized : delivery.contentKey.length = encryption.keyLength) :
    ∃ token, encryptCompact algorithm encryption key draws plaintext contentType = .ok token := by
  obtain ⟨content, made⟩ := ContentEncryption.exists_sealContent sized
  exact ⟨_, encryptCompact_eq_ok.mpr ⟨delivery, content, delivered, made, rfl⟩⟩

theorem segments_encryptCompact (header : Header) (encryptedKey : Bytes) (content : Sealed) :
    Text.Segments [header.encode, Base64Url.encode encryptedKey, Base64Url.encode content.iv,
      Base64Url.encode content.ciphertext, Base64Url.encode content.tag] := by
  rw [Header.encode]
  exact Text.segments_encode [_, encryptedKey, content.iv, content.ciphertext, content.tag]

theorem parse_segments {header : Header} (counted : header.Counted) (nothingCritical : header.crit = none)
    (encrypted : header.enc ≠ none) (encryptedKey : Bytes) (content : Sealed) :
    parse (Text.joinDotted [header.encode, Base64Url.encode encryptedKey, Base64Url.encode content.iv,
        Base64Url.encode content.ciphertext, Base64Url.encode content.tag]) =
      .ok ⟨header, header.encode, encryptedKey, content⟩ := by
  have segments := segments_encryptCompact header encryptedKey content
  have cut := Text.dotted_segments (List.cons_ne_nil _ _) segments
  rw [parse_eq_ok, Text.trim_joinDotted segments, cut]
  refine ⟨Header.decode_encode counted nothingCritical, encrypted, _, _, _, _, rfl, ?_, ?_, ?_, ?_⟩
  · exact Base64Url.decode?_encode encryptedKey
  · exact Base64Url.decode?_encode content.iv
  · exact Base64Url.decode?_encode content.ciphertext
  · exact Base64Url.decode?_encode content.tag

theorem decrypt_eq_ok {jwe : Jwe} {later : Draws} :
    jwe.decrypt key later = .ok plaintext ↔ ∃ algorithm encryption parameters contentKey,
      algorithm.name = jwe.header.alg ∧ ContentEncryption.ofName? (jwe.header.enc.getD "") = some encryption ∧
        keyParameters jwe.header = .ok parameters ∧
        KeyManagement.recover algorithm encryption key later jwe.encryptedKey parameters = .ok contentKey ∧
        encryption.openContent contentKey (Bytes.ofText jwe.protectedText) jwe.content = .ok plaintext := by
  simp only [decrypt, bind_eq_ok, require_eq_ok, mapError_eq_ok, KeyAlgorithm.ofName?_eq_some]
  constructor
  · rintro ⟨algorithm, named, encryption, found, parameters, read, contentKey, recovered, opened⟩
    exact ⟨algorithm, encryption, parameters, contentKey, named, found, read, recovered, opened⟩
  · rintro ⟨algorithm, encryption, parameters, contentKey, named, found, read, recovered, opened⟩
    exact ⟨algorithm, named, encryption, found, parameters, read, contentKey, recovered, opened⟩

theorem decrypt_of_recovered {jwe : Jwe} {later : Draws} {parameters : KeyParameters} {contentKey : Bytes}
    (algorithmNamed : jwe.header.alg = algorithm.name) (encryptionNamed : jwe.header.enc = some encryption.name)
    (read : keyParameters jwe.header = .ok parameters)
    (recovered : KeyManagement.recover algorithm encryption key later jwe.encryptedKey parameters = .ok contentKey)
    (opened : encryption.openContent contentKey (Bytes.ofText jwe.protectedText) jwe.content = .ok plaintext) :
    jwe.decrypt key later = .ok plaintext := by
  have encryptionFound : ContentEncryption.ofName? (jwe.header.enc.getD "") = some encryption := by
    rw [encryptionNamed, Option.getD_some, ContentEncryption.ofName?_name]
  exact decrypt_eq_ok.mpr ⟨algorithm, encryption, parameters, contentKey, algorithmNamed.symm, encryptionFound, read,
    recovered, opened⟩

theorem parse_encryptCompact
    (made : encryptCompact algorithm encryption key draws plaintext contentType = .ok token) :
    ∃ delivery content, KeyManagement.deliver algorithm encryption key draws = .ok delivery ∧
      encryption.sealContent draws delivery.contentKey
        (Bytes.ofText (headerOf algorithm encryption key delivery contentType).encode) plaintext = .ok content ∧
      parse token = .ok ⟨headerOf algorithm encryption key delivery contentType,
        (headerOf algorithm encryption key delivery contentType).encode, delivery.encryptedKey, content⟩ := by
  obtain ⟨delivery, content, delivered, contentMade, rfl⟩ := encryptCompact_eq_ok.mp made
  have carries := (KeyManagement.delivers_of_deliver delivered).carries
  have counted : (headerOf algorithm encryption key delivery contentType).Counted := headerOf_counted carries
  refine ⟨delivery, content, delivered, contentMade, ?_⟩
  exact parse_segments counted rfl (Option.some_ne_none _) delivery.encryptedKey content

/-- The key decrypts what was delivered to its public half and sealed under the header. -/
theorem decrypt_delivered {content : Sealed} (hidden : key.isPublic = false)
    (trusted : KeyManagement.Trusted algorithm key.material)
    (delivered : KeyManagement.deliver algorithm encryption key.toPublic draws = .ok delivery)
    (contentMade : encryption.sealContent draws delivery.contentKey
      (Bytes.ofText (headerOf algorithm encryption key.toPublic delivery contentType).encode) plaintext = .ok content)
    (later : Draws) :
    decrypt ⟨headerOf algorithm encryption key.toPublic delivery contentType,
      (headerOf algorithm encryption key.toPublic delivery contentType).encode, delivery.encryptedKey, content⟩
      key later = .ok plaintext := by
  refine decrypt_of_recovered rfl rfl keyParameters_headerOf
    (KeyManagement.recover_deliver hidden trusted delivered) ?_
  exact ContentEncryption.openContent_sealContent contentMade

/-- A token that was encrypted to the public half of a key parses, its header tells how it was made
and is written with nothing else, and the key decrypts it, whatever is drawn then. -/
theorem encryptCompact_round_trip (hidden : key.isPublic = false)
    (trusted : KeyManagement.Trusted algorithm key.material)
    (made : encryptCompact algorithm encryption key.toPublic draws plaintext contentType = .ok token) :
    ∃ jwe, parse token = .ok jwe ∧
      jwe.protectedText = jwe.header.encode ∧
      Describes algorithm encryption key.id contentType jwe.header ∧
      ∀ later, jwe.decrypt key later = .ok plaintext := by
  obtain ⟨delivery, content, delivered, contentMade, parsed⟩ := parse_encryptCompact made
  have describes : Describes algorithm encryption key.id contentType
      (headerOf algorithm encryption key.toPublic delivery contentType) :=
    headerOf_describes (KeyManagement.delivers_of_deliver delivered).carries
  refine ⟨_, parsed, rfl, describes, ?_⟩
  exact decrypt_delivered hidden trusted delivered contentMade

/-- A key for encryption without an identifier. -/
def rsaRecipientKey : Key := ⟨"", some .encryption, some "RSA-OAEP-256", .rsaPrivate Rsa.PrivateKey.smoothKey⟩

theorem exists_encryptCompact_rsaRecipientKey (draws : Draws) (plaintext : Bytes) (contentType : Option String) :
    ∃ token, encryptCompact (.rsaOaep .sha256) (.gcm .bits128) rsaRecipientKey.toPublic draws plaintext contentType =
      .ok token := by
  have drawn : (KeyManagement.drawnKey (.gcm .bits128) draws).length = (ContentEncryption.gcm .bits128).keyLength :=
    ByteSource.length_take _ _
  have room : (KeyManagement.drawnKey (.gcm .bits128) draws).length + 2 * Rsa.Oaep.Hash.sha256.size + 2 ≤
      Rsa.PrivateKey.smoothKey.toPublic.size := by
    rw [drawn, Rsa.PrivateKey.size_smoothKey]
    decide
  obtain ⟨encrypted, encrypts⟩ := KeyManagement.exists_rsaEncrypt_oaep draws room
  have delivers : KeyManagement.Delivers (.gcm .bits128) rsaRecipientKey.toPublic draws (.rsaOaep .sha256) _ :=
    .rsaOaep rfl encrypts
  exact exists_encryptCompact delivers.deliver drawn

theorem trusted_rsaRecipientKey (algorithm : KeyAlgorithm) : KeyManagement.Trusted algorithm rsaRecipientKey.material :=
  KeyManagement.trusted_rsaPrivate algorithm Rsa.PrivateKey.inverts_smoothKey

/-- A content key that is encrypted to the public half of an RSA key. -/
theorem encryptCompact_round_trip_rsa :
    ∃ token, encryptCompact (.rsaOaep .sha256) (.gcm .bits128) rsaRecipientKey.toPublic (.constant 3 0) [1, 2, 3]
        (some "JWT") = .ok token ∧
      ∃ jwe, parse token = .ok jwe ∧ jwe.header.alg = "RSA-OAEP-256" ∧ jwe.header.iv = none ∧
        jwe.decrypt rsaRecipientKey (.constant 0 0) = .ok [1, 2, 3] := by
  obtain ⟨token, made⟩ := exists_encryptCompact_rsaRecipientKey (.constant 3 0) [1, 2, 3] (some "JWT")
  obtain ⟨jwe, parsed, _, describes, decrypted⟩ :=
    encryptCompact_round_trip rfl (trusted_rsaRecipientKey (.rsaOaep .sha256)) made
  have noIv : jwe.header.iv = none := by
    rw [← Option.not_isSome_iff_eq_none, describes.iv]
    rintro ⟨size, same⟩
    cases same
  exact ⟨token, made, jwe, parsed, describes.alg, noIv, decrypted _⟩

end WebToken.Jwe
