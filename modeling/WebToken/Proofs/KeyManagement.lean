import WebToken.KeyManagement
import WebToken.Proofs.Cipher.KeyWrap
import WebToken.Proofs.Key.Material
import WebToken.Proofs.Rsa.Encryption

/-!
Recovering a content key undoes delivering it: the private or shared key gets back what was
delivered to its public half, from what travels with the token. The operations of RSA and of the
curves are trusted, the choice among the algorithms and everything that travels is not.
-/

namespace WebToken

def Delivery.parameters (delivery : Delivery) : KeyParameters where
  ephemeral := delivery.ephemeral.map Jwk.ofMaterial
  sender := []
  recipient := []
  iv := delivery.iv
  tag := delivery.tag
  salt := delivery.salt
  iterations := delivery.iterations

namespace KeyManagement

/-- The primitives of an algorithm serve a recipient: the private operation of an RSA key undoes the
public one, and an ephemeral key agrees with a secret scalar on the same bytes from both sides. -/
def Trusted : KeyAlgorithm → Material → Prop
  | .rsaPkcs1, .rsaPrivate key => key.Inverts
  | .rsaOaep _, .rsaPrivate key => key.Inverts
  | .agreement _, .ecPrivate curve secret => ∀ drawn,
      curve.contains (curve.publicPoint (ephemeralScalar curve drawn)) = true ∧
        curve.agree secret (curve.publicPoint (ephemeralScalar curve drawn)) =
          curve.agree (ephemeralScalar curve drawn) (curve.publicPoint secret)
  | _, _ => True

theorem trusted_symmetric (algorithm : KeyAlgorithm) (secret : Bytes) :
    Trusted algorithm (.symmetric secret) := by
  cases algorithm <;> trivial

/-- An RSA key is trusted with every algorithm once its private operation undoes the public one. -/
theorem trusted_rsaPrivate (algorithm : KeyAlgorithm) {own : Rsa.PrivateKey} (inverts : own.Inverts) :
    Trusted algorithm (.rsaPrivate own) := by
  cases algorithm with
  | rsaPkcs1 => exact inverts
  | rsaOaep hash => exact inverts
  | _ => trivial

variable {algorithm : KeyAlgorithm} {encryption : ContentEncryption} {key : Key} {draws later : Draws}
  {delivery : Delivery} {size : Aes.KeySize} {secret contentKey wrapped : Bytes} {length : Nat}

theorem secretOfLength_eq_ok :
    secretOfLength key algorithm length = .ok secret ↔
      key.material = .symmetric secret ∧ secret.length = length := by
  unfold secretOfLength
  split
  case h_1 found same =>
      split
      case isTrue sized =>
          rw [Except.ok.injEq, same, Material.symmetric.injEq]
          exact ⟨fun equal => ⟨equal, equal ▸ sized⟩, And.left⟩
      case isFalse sized =>
          refine ⟨nofun, ?_⟩
          intro ⟨equal, whole⟩
          rw [same, Material.symmetric.injEq] at equal
          subst equal
          exact absurd whole sized
  case h_2 other => exact ⟨nofun, fun ⟨equal, _⟩ => absurd equal (other secret)⟩

theorem passwordOf_eq_ok :
    passwordOf key algorithm = .ok secret ↔ key.material = .symmetric secret ∧ secret ≠ [] := by
  unfold passwordOf
  split
  case h_1 found same =>
      rw [same, Material.symmetric.injEq]
      cases found with
      | nil => exact ⟨nofun, fun ⟨equal, nonempty⟩ => absurd equal.symm nonempty⟩
      | cons byte rest =>
          constructor
          · intro found
            exact ⟨Except.ok.inj found, (Except.ok.inj found) ▸ List.cons_ne_nil byte rest⟩
          · intro given
            obtain ⟨rfl, _⟩ := given
            rfl
  case h_2 other => exact ⟨nofun, fun ⟨equal, _⟩ => absurd equal (other secret)⟩

theorem unwrap_eq_ok_iff_wrap :
    unwrap size secret wrapped = .ok contentKey ↔ wrap size secret contentKey = .ok wrapped := by
  rw [unwrap, wrap, require_eq_ok, require_eq_ok, KeyWrap.unwrap?_eq_some_iff_wrap?]

theorem unwrap_wrap (made : wrap size secret contentKey = .ok wrapped) : unwrap size secret wrapped = .ok contentKey :=
  unwrap_eq_ok_iff_wrap.mpr made

theorem exists_wrap :
    (∃ wrapped, wrap size secret contentKey = .ok wrapped) ↔ contentKey.length % 8 = 0 ∧ 16 ≤ contentKey.length := by
  simp only [wrap, require_eq_ok]
  exact KeyWrap.exists_wrap?

/-- Under one key, wrapping pairs the key data of two or more whole halves with the texts that unwrapping accepts:
each text is eight bytes longer than the key data that it gives, that key data is wrapped as the same text again, and
a text that no key data is wrapped as cannot be decrypted, whatever its length. -/
theorem wrap_unwrap_bijective (size : Aes.KeySize) (secret : Bytes) :
    (∀ contentKey : Bytes, contentKey.length % 8 = 0 → 16 ≤ contentKey.length →
      ∃ wrapped, wrap size secret contentKey = .ok wrapped ∧ wrapped.length = contentKey.length + 8 ∧
        unwrap size secret wrapped = .ok contentKey) ∧
    (∀ wrapped contentKey, unwrap size secret wrapped = .ok contentKey →
      contentKey.length % 8 = 0 ∧ 16 ≤ contentKey.length ∧ wrap size secret contentKey = .ok wrapped) ∧
    ∀ wrapped, (∀ contentKey, wrap size secret contentKey ≠ .ok wrapped) →
      unwrap size secret wrapped = .error .decryptionFailed := by
  refine ⟨?wraps, ?unwraps, ?refuses⟩
  case wraps =>
      intro contentKey whole long
      obtain ⟨wrapped, made⟩ := exists_wrap.mpr ⟨whole, long⟩
      have length : wrapped.length = contentKey.length + 8 := KeyWrap.length_of_wrap? (require_eq_ok.mp made)
      exact ⟨wrapped, made, length, unwrap_wrap made⟩
  case unwraps =>
      intro wrapped contentKey opened
      have made : wrap size secret contentKey = .ok wrapped := unwrap_eq_ok_iff_wrap.mp opened
      obtain ⟨whole, long⟩ := exists_wrap.mp ⟨wrapped, made⟩
      exact ⟨whole, long, made⟩
  case refuses =>
      intro wrapped other
      cases opened : unwrap size secret wrapped with
      | ok contentKey => exact absurd (unwrap_eq_ok_iff_wrap.mp opened) (other contentKey)
      | error cause => rw [(require_eq_error.mp opened).2]

/-- Two halves, and a text that is no whole number of them. -/
theorem wrap_unwrap_bijective_halves :
    ∃ wrapped, wrap .bits192 (List.replicate 24 7) (List.replicate 16 1) = .ok wrapped ∧ wrapped.length = 24 ∧
      unwrap .bits192 (List.replicate 24 7) wrapped = .ok (List.replicate 16 1) ∧
      unwrap .bits192 (List.replicate 24 7) (wrapped ++ [0]) = .error .decryptionFailed := by
  obtain ⟨wraps, unwraps, refuses⟩ := wrap_unwrap_bijective .bits192 (List.replicate 24 7)
  obtain ⟨wrapped, _, length, opened⟩ := wraps (List.replicate 16 1) (by decide) (by decide)
  obtain ⟨_, _, made⟩ := unwraps wrapped _ opened
  refine ⟨wrapped, made, length, opened, refuses _ fun contentKey longer => ?_⟩
  have whole := (exists_wrap.mp ⟨_, longer⟩).1
  have counted := KeyWrap.length_of_wrap? (require_eq_ok.mp longer)
  rw [List.length_append, length, List.length_singleton, List.length_replicate] at counted
  omega

theorem takeNonzero_nonzero (source : ByteSource) (length : Nat) :
    ∀ byte ∈ source.takeNonzero length, byte ≠ 0 := by
  intro byte present zero
  obtain ⟨drawn, _, rfl⟩ := List.mem_map.mp present
  have value := congrArg UInt8.toNat zero
  rw [UInt8.toNat_ofNat_of_lt' (Nat.lt_of_le_of_lt (Nat.add_le_add_left (Nat.le_of_lt_succ
    (Nat.mod_lt _ (by decide : 0 < 255))) 1) (by decide : 1 + 254 < 256)), UInt8.toNat_zero] at value
  omega

theorem rsaDecrypt_rsaEncrypt {own : Rsa.PrivateKey} (later : Draws) (inverts : own.Inverts)
    (made : rsaEncrypt algorithm draws own.toPublic contentKey = .ok wrapped) :
    rsaDecrypt algorithm later own wrapped contentKey.length = .ok contentKey := by
  unfold rsaEncrypt at made
  unfold rsaDecrypt
  split at made
  case h_1 hash =>
      exact mapError_eq_ok.mpr (Rsa.Oaep.decrypt_encrypt inverts (ByteSource.length_take _ _) made)
  case h_2 other =>
      have padded : (draws.encryptionPadding.takeNonzero (Rsa.Pkcs1.paddingLength own.toPublic contentKey)).length =
          Rsa.Pkcs1.paddingLength own.toPublic contentKey := by
        rw [ByteSource.takeNonzero, List.length_map, ByteSource.length_take]
      have decrypted := Rsa.Pkcs1.decrypt_encrypt inverts padded (takeNonzero_nonzero _ _) made
      simp only [decrypted, if_true]

def drawnKey (encryption : ContentEncryption) (draws : Draws) : Bytes :=
  draws.contentKey.take encryption.keyLength

/-- What is delivered to a key, one rule for each kind of algorithm. -/
inductive Delivers (encryption : ContentEncryption) (key : Key) (draws : Draws) : KeyAlgorithm → Delivery → Prop
  | direct {secret : Bytes} (shared : key.material = .symmetric secret)
      (sized : secret.length = encryption.keyLength) :
      Delivers encryption key draws .direct { contentKey := secret, encryptedKey := [] }
  | aesWrap {size : Aes.KeySize} {secret wrapped : Bytes} (shared : key.material = .symmetric secret)
      (sized : secret.length = size.bytes)
      (wraps : wrap size secret (drawnKey encryption draws) = .ok wrapped) :
      Delivers encryption key draws (.aesWrap size)
        { contentKey := drawnKey encryption draws, encryptedKey := wrapped }
  | rsaPkcs1 {recipient : Rsa.PublicKey} {encrypted : Bytes}
      (half : key.material.public? = some (.rsaPublic recipient))
      (encrypts : rsaEncrypt .rsaPkcs1 draws recipient (drawnKey encryption draws) = .ok encrypted) :
      Delivers encryption key draws .rsaPkcs1
        { contentKey := drawnKey encryption draws, encryptedKey := encrypted }
  | rsaOaep {hash : Rsa.Oaep.Hash} {recipient : Rsa.PublicKey} {encrypted : Bytes}
      (half : key.material.public? = some (.rsaPublic recipient))
      (encrypts : rsaEncrypt (.rsaOaep hash) draws recipient (drawnKey encryption draws) = .ok encrypted) :
      Delivers encryption key draws (.rsaOaep hash)
        { contentKey := drawnKey encryption draws, encryptedKey := encrypted }
  | agreement {curve : Curve} {point : Curve.Point}
      (half : key.material.public? = some (.ecPublic curve point)) :
      Delivers encryption key draws (.agreement none)
        { contentKey := agreedKey none encryption (curve.agree (ephemeralScalar curve draws.ephemeral) point) [] []
          encryptedKey := []
          ephemeral := some (.ecPublic curve (curve.publicPoint (ephemeralScalar curve draws.ephemeral))) }
  | agreementWrap {size : Aes.KeySize} {curve : Curve} {point : Curve.Point} {wrapped : Bytes}
      (half : key.material.public? = some (.ecPublic curve point))
      (wraps : wrap size
        (agreedKey (some size) encryption (curve.agree (ephemeralScalar curve draws.ephemeral) point) [] [])
        (drawnKey encryption draws) = .ok wrapped) :
      Delivers encryption key draws (.agreement (some size))
        { contentKey := drawnKey encryption draws
          encryptedKey := wrapped
          ephemeral := some (.ecPublic curve (curve.publicPoint (ephemeralScalar curve draws.ephemeral))) }
  | gcmWrap {size : Aes.KeySize} {secret encrypted tag : Bytes} (shared : key.material = .symmetric secret)
      (sized : secret.length = size.bytes)
      (seals : Gcm.sealText size secret (draws.sealedKeyIv.take Gcm.ivSize) [] (drawnKey encryption draws) =
        (encrypted, tag)) :
      Delivers encryption key draws (.gcmWrap size)
        { contentKey := drawnKey encryption draws
          encryptedKey := encrypted
          iv := some (draws.sealedKeyIv.take Gcm.ivSize)
          tag := some tag }
  | password {size : Aes.KeySize} {secret wrapped : Bytes} (shared : key.material = .symmetric secret)
      (nonempty : secret ≠ [])
      (wraps : wrap size
        (passwordKey size secret (draws.passwordSalt.take saltLength) passwordIterations)
        (drawnKey encryption draws) = .ok wrapped) :
      Delivers encryption key draws (.password size)
        { contentKey := drawnKey encryption draws
          encryptedKey := wrapped
          salt := some (draws.passwordSalt.take saltLength)
          iterations := some passwordIterations }

theorem exists_rsaEncrypt_oaep {hash : Rsa.Oaep.Hash} {recipient : Rsa.PublicKey} (draws : Draws)
    (room : contentKey.length + 2 * hash.size + 2 ≤ recipient.size) :
    ∃ encrypted, rsaEncrypt (.rsaOaep hash) draws recipient contentKey = .ok encrypted :=
  ⟨_, if_neg (Nat.not_lt.mpr room)⟩

theorem deliverRsaTo_eq_ok {recipient : Rsa.PublicKey} :
    deliverRsaTo algorithm encryption recipient draws = .ok delivery ↔
      ∃ encrypted, rsaEncrypt algorithm draws recipient (drawnKey encryption draws) = .ok encrypted ∧
        delivery = { contentKey := drawnKey encryption draws, encryptedKey := encrypted } := by
  simp only [deliverRsaTo, bind_eq_ok, mapError_eq_ok]
  constructor
  · intro given
    obtain ⟨encrypted, encrypts, found⟩ := given
    exact ⟨encrypted, encrypts, (Except.ok.inj found).symm⟩
  · intro given
    obtain ⟨encrypted, encrypts, rfl⟩ := given
    exact ⟨encrypted, encrypts, rfl⟩

theorem deliverRsa_of_half {recipient : Rsa.PublicKey} (half : key.material.public? = some (.rsaPublic recipient)) :
    deliverRsa algorithm encryption key draws = deliverRsaTo algorithm encryption recipient draws := by
  unfold deliverRsa
  cases same : key.material <;> rw [same] at half <;> cases half <;> rfl

theorem deliverRsa_eq_ok :
    deliverRsa algorithm encryption key draws = .ok delivery ↔
      ∃ recipient encrypted, key.material.public? = some (.rsaPublic recipient) ∧
        rsaEncrypt algorithm draws recipient (drawnKey encryption draws) = .ok encrypted ∧
        delivery = { contentKey := drawnKey encryption draws, encryptedKey := encrypted } := by
  constructor
  · intro delivered
    have half : ∃ recipient, key.material.public? = some (.rsaPublic recipient) := by
      unfold deliverRsa at delivered
      split at delivered
      case h_1 recipient same => exact ⟨recipient, congrArg Material.public? same⟩
      case h_2 own same => exact ⟨own.toPublic, congrArg Material.public? same⟩
      case h_3 => cases delivered
    obtain ⟨recipient, half⟩ := half
    rw [deliverRsa_of_half half] at delivered
    obtain ⟨encrypted, encrypts, made⟩ := deliverRsaTo_eq_ok.mp delivered
    exact ⟨recipient, encrypted, half, encrypts, made⟩
  · intro given
    obtain ⟨recipient, encrypted, half, encrypts, made⟩ := given
    rw [deliverRsa_of_half half]
    exact deliverRsaTo_eq_ok.mpr ⟨encrypted, encrypts, made⟩

theorem agreeEphemeral_eq_ok {recipient ephemeral : Material} :
    agreeEphemeral draws recipient = .ok (secret, ephemeral) ↔
      ∃ curve point, recipient = .ecPublic curve point ∧
        curve.agree (ephemeralScalar curve draws.ephemeral) point = secret ∧
        .ecPublic curve (curve.publicPoint (ephemeralScalar curve draws.ephemeral)) = ephemeral := by
  unfold agreeEphemeral
  split
  case h_1 curve point =>
      constructor
      · intro found
        obtain ⟨rfl, rfl⟩ := Prod.mk.inj (Except.ok.inj found)
        exact ⟨curve, point, rfl, rfl, rfl⟩
      · intro given
        obtain ⟨_, _, same, rfl, rfl⟩ := given
        obtain ⟨rfl, rfl⟩ := Material.ecPublic.inj same
        rfl
  case h_2 other =>
      constructor
      · exact nofun
      · intro given
        obtain ⟨curve, point, same, _⟩ := given
        exact absurd same (other curve point)

theorem delivers_of_deliver (delivered : deliver algorithm encryption key draws = .ok delivery) :
    Delivers encryption key draws algorithm delivery := by
  cases algorithm with
  | ed25519 => cases delivered
  | direct =>
      obtain ⟨secret, shared, found⟩ := bind_eq_ok.mp delivered
      obtain ⟨shared, sized⟩ := secretOfLength_eq_ok.mp shared
      obtain rfl := Except.ok.inj found
      exact .direct shared sized
  | aesWrap size =>
      obtain ⟨secret, shared, delivered⟩ := bind_eq_ok.mp delivered
      obtain ⟨wrapped, wraps, found⟩ := bind_eq_ok.mp delivered
      obtain ⟨shared, sized⟩ := secretOfLength_eq_ok.mp shared
      obtain rfl := Except.ok.inj found
      exact .aesWrap shared sized wraps
  | rsaPkcs1 =>
      obtain ⟨recipient, encrypted, half, encrypts, rfl⟩ := deliverRsa_eq_ok.mp delivered
      exact .rsaPkcs1 half encrypts
  | rsaOaep hash =>
      obtain ⟨recipient, encrypted, half, encrypts, rfl⟩ := deliverRsa_eq_ok.mp delivered
      exact .rsaOaep half encrypts
  | agreement wrapSize =>
      obtain ⟨recipient, half, delivered⟩ := bind_eq_ok.mp delivered
      obtain ⟨⟨secret, ephemeral⟩, agreed, delivered⟩ := bind_eq_ok.mp delivered
      obtain ⟨curve, point, rfl, rfl, rfl⟩ := agreeEphemeral_eq_ok.mp agreed
      cases wrapSize with
      | none =>
          obtain rfl := Except.ok.inj delivered
          exact .agreement (require_eq_ok.mp half)
      | some size =>
          obtain ⟨wrapped, wraps, found⟩ := bind_eq_ok.mp delivered
          obtain rfl := Except.ok.inj found
          exact .agreementWrap (require_eq_ok.mp half) wraps
  | gcmWrap size =>
      obtain ⟨secret, shared, found⟩ := bind_eq_ok.mp delivered
      obtain ⟨shared, sized⟩ := secretOfLength_eq_ok.mp shared
      dsimp only at found
      generalize seals : Gcm.sealText size secret _ _ _ = made at found
      obtain ⟨encrypted, tag⟩ := made
      obtain rfl := Except.ok.inj found
      exact .gcmWrap shared sized seals
  | password size =>
      obtain ⟨secret, shared, delivered⟩ := bind_eq_ok.mp delivered
      obtain ⟨wrapped, wraps, found⟩ := bind_eq_ok.mp delivered
      obtain ⟨shared, nonempty⟩ := passwordOf_eq_ok.mp shared
      obtain rfl := Except.ok.inj found
      exact .password shared nonempty wraps

theorem Delivers.deliver (delivers : Delivers encryption key draws algorithm delivery) :
    deliver algorithm encryption key draws = .ok delivery := by
  cases delivers with
  | direct shared sized =>
      rw [KeyManagement.deliver, secretOfLength_eq_ok.mpr ⟨shared, sized⟩]
      rfl
  | aesWrap shared sized wraps =>
      rw [drawnKey] at wraps
      simp only [KeyManagement.deliver, secretOfLength_eq_ok.mpr ⟨shared, sized⟩, ok_bind, wraps]
      rfl
  | rsaPkcs1 half encrypts => exact deliverRsa_eq_ok.mpr ⟨_, _, half, encrypts, rfl⟩
  | rsaOaep half encrypts => exact deliverRsa_eq_ok.mpr ⟨_, _, half, encrypts, rfl⟩
  | agreement half =>
      simp only [KeyManagement.deliver, half, require, ok_bind, agreeEphemeral]
      rfl
  | agreementWrap half wraps =>
      rw [drawnKey] at wraps
      simp only [KeyManagement.deliver, half, require, ok_bind, agreeEphemeral, wraps]
      rfl
  | gcmWrap shared sized seals =>
      rw [drawnKey] at seals
      simp only [KeyManagement.deliver, secretOfLength_eq_ok.mpr ⟨shared, sized⟩, ok_bind, seals]
      rfl
  | password shared nonempty wraps =>
      rw [drawnKey] at wraps
      simp only [KeyManagement.deliver, passwordOf_eq_ok.mpr ⟨shared, nonempty⟩, ok_bind, wraps]
      rfl

/-- What travels with a token is what its algorithm needs, and nothing else. -/
structure Carries (algorithm : KeyAlgorithm) (delivery : Delivery) : Prop where
  ephemeral : delivery.ephemeral.isSome = true ↔ ∃ wrap, algorithm = .agreement wrap
  point : ∀ material, delivery.ephemeral = some material → ∃ curve point, material = .ecPublic curve point
  iv : delivery.iv.isSome = true ↔ ∃ size, algorithm = .gcmWrap size
  tag : delivery.tag.isSome = true ↔ ∃ size, algorithm = .gcmWrap size
  salt : delivery.salt.isSome = true ↔ ∃ size, algorithm = .password size
  iterations : delivery.iterations.isSome = true ↔ ∃ size, algorithm = .password size
  count : ∀ count, delivery.iterations = some count → count = passwordIterations

theorem Delivers.carries (delivers : Delivers encryption key draws algorithm delivery) :
    Carries algorithm delivery := by
  cases delivers <;> constructor <;> simp

theorem agreeStatic_ephemeral {curve : Curve} {own : Nat} {drawn : Nat}
    (agreed : curve.agree own (curve.publicPoint (ephemeralScalar curve drawn)) =
      curve.agree (ephemeralScalar curve drawn) (curve.publicPoint own)) :
    agreeStatic (.ecPrivate curve own) (.ecPublic curve (curve.publicPoint (ephemeralScalar curve drawn))) =
      .ok (curve.agree (ephemeralScalar curve drawn) (curve.publicPoint own)) := by
  rw [agreeStatic, if_pos rfl, agreed]

theorem recoverRsa_rsaEncrypt {recipient : Rsa.PublicKey} {encrypted : Bytes} (hidden : key.isPublic = false)
    (inverts : ∀ own, key.material = .rsaPrivate own → own.Inverts)
    (half : key.toPublic.material.public? = some (.rsaPublic recipient))
    (encrypts : rsaEncrypt algorithm draws recipient (drawnKey encryption draws) = .ok encrypted) :
    recoverRsa algorithm encryption key later encrypted = .ok (drawnKey encryption draws) := by
  rw [Key.public?_toPublic] at half
  obtain ⟨own, same, rfl⟩ := (Material.public?_eq_rsaPublic hidden).mp half
  have decrypted := rsaDecrypt_rsaEncrypt later (inverts own same) encrypts
  rw [drawnKey, ByteSource.length_take] at decrypted
  rw [recoverRsa, same]
  exact decrypted

/-- The key that a content key was delivered to recovers it from what travels. -/
theorem recover_deliver (hidden : key.isPublic = false) (trusted : Trusted algorithm key.material)
    (delivered : deliver algorithm encryption key.toPublic draws = .ok delivery) :
    recover algorithm encryption key later delivery.encryptedKey delivery.parameters =
      .ok delivery.contentKey := by
  cases delivers_of_deliver delivered with
  | direct shared sized =>
      have shared := Key.material_toPublic_symmetric.mp shared
      exact secretOfLength_eq_ok.mpr ⟨shared, sized⟩
  | aesWrap shared sized wraps =>
      have shared := Key.material_toPublic_symmetric.mp shared
      rw [recover, secretOfLength_eq_ok.mpr ⟨shared, sized⟩, ok_bind]
      exact unwrap_wrap wraps
  | rsaPkcs1 half encrypts =>
      refine recoverRsa_rsaEncrypt hidden (fun own same => ?_) half encrypts
      rwa [same] at trusted
  | rsaOaep half encrypts =>
      refine recoverRsa_rsaEncrypt hidden (fun own same => ?_) half encrypts
      rwa [same] at trusted
  | agreement half =>
      rw [Key.public?_toPublic] at half
      obtain ⟨own, same, rfl⟩ := (Material.public?_eq_ecPublic hidden).mp half
      rw [same] at trusted
      obtain ⟨contained, agreed⟩ := trusted draws.ephemeral
      have read (change : KeyFlaw → Error) : (Jwk.ofMaterial (.ecPublic _ _)).material.mapError change = .ok _ :=
        mapError_eq_ok.mpr (Jwk.material_ofMaterial_ecPublic contained)
      simp only [recover, Delivery.parameters, Option.map_some, require, ok_bind, read, same,
        agreeStatic_ephemeral agreed]
      rfl
  | agreementWrap half wraps =>
      rw [Key.public?_toPublic] at half
      obtain ⟨own, same, rfl⟩ := (Material.public?_eq_ecPublic hidden).mp half
      rw [same] at trusted
      obtain ⟨contained, agreed⟩ := trusted draws.ephemeral
      have read (change : KeyFlaw → Error) : (Jwk.ofMaterial (.ecPublic _ _)).material.mapError change = .ok _ :=
        mapError_eq_ok.mpr (Jwk.material_ofMaterial_ecPublic contained)
      simp only [recover, Delivery.parameters, Option.map_some, require, ok_bind, read, same,
        agreeStatic_ephemeral agreed]
      exact unwrap_wrap wraps
  | @gcmWrap size secret encrypted tag shared sized seals =>
      have shared := Key.material_toPublic_symmetric.mp shared
      have opened := Gcm.openText?_sealText size secret [] (drawnKey encryption draws)
        (ByteSource.length_take draws.sealedKeyIv Gcm.ivSize)
      rw [seals] at opened
      simp only [recover, Delivery.parameters, secretOfLength_eq_ok.mpr ⟨shared, sized⟩, ok_bind, opened]
      rfl
  | password shared nonempty wraps =>
      have shared := Key.material_toPublic_symmetric.mp shared
      have salted : ¬ (draws.passwordSalt.take saltLength).length < minSaltLength := by
        rw [ByteSource.length_take]
        decide
      have counted : (!acceptsIterations passwordIterations) = false := by decide
      simp only [recover, Delivery.parameters, if_neg salted, counted, Bool.false_eq_true, if_false,
        passwordOf_eq_ok.mpr ⟨shared, nonempty⟩, ok_bind]
      exact unwrap_wrap wraps

end KeyManagement

end WebToken
