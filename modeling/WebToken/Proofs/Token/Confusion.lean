import WebToken.Proofs.Hash.Sha2
import WebToken.Proofs.Token.RoundTrip
import WebToken.Proofs.Token.Stages

/-!
No algorithm is taken for another: a signature is accepted only under a registered name, with key
material of the kind that the named algorithm takes. A keyed hash takes a shared secret and nothing
else, so what is published of a key never serves as one.
-/

namespace WebToken

namespace Signature

open Sha2 (Kind)

/-- An algorithm accepts a signature with key material of its own kind. A keyed hash takes a secret at
least as long as its digest, and the whole digest. -/
inductive Accepts (message signature : Bytes) : SignatureAlgorithm → Material → Prop
  | hmac {hash : Kind} {secret : Bytes} (long : hash.size ≤ secret.length)
      (whole : signature = hash.hmac secret message) : Accepts message signature (.hmac hash) (.symmetric secret)
  | pkcs1 {hash : Kind} {material : Material} {key : Rsa.PublicKey}
      (half : material.public? = some (.rsaPublic key))
      (verified : Rsa.Pkcs1.verify key hash message signature = true) :
      Accepts message signature (.pkcs1 hash) material
  | pss {hash : Kind} {material : Material} {key : Rsa.PublicKey}
      (half : material.public? = some (.rsaPublic key))
      (verified : Rsa.Pss.verify key hash message signature = true) :
      Accepts message signature (.pss hash) material
  | ecdsa {curve : Curve} {material : Material} {point : Curve.Point}
      (half : material.public? = some (.ecPublic curve point))
      (verified : Ecdsa.verify curve point message signature = true) :
      Accepts message signature (.ecdsa curve) material
  | eddsa {material : Material} {key : Bytes} (half : material.public? = some (.edPublic key))
      (verified : Ed25519.verify key message signature = true) :
      Accepts message signature .eddsa material

variable {algorithm : SignatureAlgorithm} {key : Key} {material : Material} {message signature : Bytes}

theorem checkSecret_eq_ok {hash : Kind} {secret : Bytes} :
    checkSecret hash secret = .ok () ↔ hash.size ≤ secret.length := by
  unfold checkSecret
  split <;> simp_all

theorem accepts_of_check (checked : check algorithm material message signature = .ok true) :
    Accepts message signature algorithm material := by
  fun_cases check algorithm material message signature with
  | case1 hash secret =>
      obtain ⟨_, long, whole⟩ := bind_eq_ok.mp checked
      exact .hmac (checkSecret_eq_ok.mp long) (beq_iff_eq.mp (Except.ok.inj whole))
  | case2 hash key => exact .pkcs1 rfl (Except.ok.inj checked)
  | case3 hash own => exact .pkcs1 rfl (Except.ok.inj checked)
  | case4 hash key => exact .pss rfl (Except.ok.inj checked)
  | case5 hash own => exact .pss rfl (Except.ok.inj checked)
  | case6 curve point =>
      rw [check, if_pos rfl] at checked
      exact .ecdsa rfl (Except.ok.inj checked)
  | case7 curve found point differs =>
      rw [check, if_neg differs] at checked
      cases checked
  | case8 curve secret =>
      rw [check, if_pos rfl] at checked
      exact .ecdsa rfl (Except.ok.inj checked)
  | case9 curve found secret differs =>
      rw [check, if_neg differs] at checked
      cases checked
  | case10 key => exact .eddsa rfl (Except.ok.inj checked)
  | case11 seed => exact .eddsa rfl (Except.ok.inj checked)
  | case12 => simp_all [check]

theorem Accepts.check (accepts : Accepts message signature algorithm material) :
    check algorithm material message signature = .ok true := by
  rw [← check_public?]
  cases accepts with
  | @hmac hash secret long whole =>
      rw [Material.public?, Option.getD_none, Signature.check, checkSecret_eq_ok.mpr long, ok_bind, whole,
        beq_self_eq_true]
      rfl
  | pkcs1 half verified => rw [half, Option.getD_some, Signature.check, verified]
  | pss half verified => rw [half, Option.getD_some, Signature.check, verified]
  | ecdsa half verified => rw [half, Option.getD_some, Signature.check, if_pos rfl, verified]
  | eddsa half verified => rw [half, Option.getD_some, Signature.check, verified]

theorem verify_eq_ok :
    verify algorithm key message signature = .ok () ↔ Accepts message signature algorithm key.material := by
  constructor
  · intro verified
    obtain ⟨accepted, checked, verified⟩ := bind_eq_ok.mp verified
    cases accepted with
    | true => exact accepts_of_check checked
    | false => cases verified
  · intro accepts
    exact verify_of_check accepts.check

end Signature

theorem SignatureAlgorithm.namesNone_name (algorithm : SignatureAlgorithm) : namesNone algorithm.name = false := by
  cases algorithm with
  | hmac hash => cases hash <;> rfl
  | pkcs1 hash => cases hash <;> rfl
  | pss hash => cases hash <;> rfl
  | ecdsa curve => cases curve <;> rfl
  | eddsa => rfl

namespace Token

open Sha2 (Kind)

/-- What a signed token and key material have in common once the signature was accepted. -/
structure Fits (jws : Jws) (material : Material) : Prop where
  registered : ∃ algorithm : SignatureAlgorithm, jws.header.alg = algorithm.name ∧
    Signature.Accepts jws.signingInput jws.signature algorithm material
  named : namesNone jws.header.alg = false
  shared : ∀ hash : Kind, jws.header.alg = (SignatureAlgorithm.hmac hash).name →
    ∃ secret, material = .symmetric secret ∧ hash.size ≤ secret.length ∧
      jws.signature = hash.hmac secret jws.signingInput ∧ jws.signature.length = hash.size

variable {jws : Jws} {key : Key} {payload : Bytes}

theorem fits_of_accepts {algorithm : SignatureAlgorithm} {material : Material}
    (registered : jws.header.alg = algorithm.name)
    (accepts : Signature.Accepts jws.signingInput jws.signature algorithm material) : Fits jws material where
  registered := ⟨algorithm, registered, accepts⟩
  named := registered ▸ algorithm.namesNone_name
  shared hash named := by
    obtain rfl := SignatureAlgorithm.name_injective (registered.symm.trans named)
    cases accepts with
    | @hmac _ secret long whole =>
        exact ⟨secret, rfl, long, whole, whole ▸ hash.length_hmac secret jws.signingInput⟩

theorem fits_of_verify (verified : jws.verify key = .ok payload) : Fits jws key.material ∧ jws.payload = payload := by
  obtain ⟨algorithm, registered, accepted, same⟩ := verify_eq_ok.mp verified
  exact ⟨fits_of_accepts registered (Signature.verify_eq_ok.mp accepted), same⟩

theorem fits_of_verifyStage {token : Bytes} {keys : KeySet} {hint : Suite} {second : Int} (signs : hint.signs = true)
    (passed : verifyStage token keys hint second = .ok payload) :
    ∃ text jws key, token = Bytes.ofText text ∧ Jws.parse text = .ok jws ∧
      Selects keys jws.header .signature second key ∧ Fits jws key.material ∧ jws.payload = payload := by
  obtain ⟨text, jws, spelled, parsed, passed⟩ := verifyStage_iff_parsed.mp passed
  obtain ⟨_, key, selected, _, verified⟩ := (verifyParsed_eq_ok signs).mp passed
  obtain ⟨fits, same⟩ := fits_of_verify verified
  exact ⟨text, jws, key, spelled, parsed, selected, fits, same⟩

/-- A signature is accepted only under the name of a registered algorithm and with key material that the
algorithm takes, both when a parsed token is verified and when a token is decoded. -/
theorem verifies_as_named :
    (∀ (jws : Jws) (key : Key) (payload : Bytes), jws.verify key = .ok payload →
      Fits jws key.material ∧ jws.payload = payload) ∧
    ∀ (token : String) (verification decryption : KeySet) (hint : Suite) (seconds : Seconds) (draws : Draws)
        (payload : Bytes), hint.signs = true →
      decodeBytes token verification decryption hint seconds draws = .ok payload →
        ∃ text jws key, received token decryption hint seconds.encryption draws = .ok (Bytes.ofText text) ∧
          Jws.parse text = .ok jws ∧ Selects verification jws.header .signature seconds.signature key ∧
          Fits jws key.material ∧ jws.payload = payload := by
  refine ⟨fun jws key payload => fits_of_verify, ?_⟩
  intro token verification decryption hint seconds draws payload signs decoded
  obtain ⟨bytes, opened, verified⟩ := verifyStage_of_decodeBytes signs decoded
  obtain ⟨text, jws, key, rfl, parsed, selected, fits, same⟩ := fits_of_verifyStage signs verified
  exact ⟨text, jws, key, opened, parsed, selected, fits, same⟩

/-- A keyed hash, checked on a parsed token and on a token that is decoded. -/
theorem verifies_as_named_hmac :
    (∃ jws : Jws, jws.verify escapedKey = .ok [0xFF] ∧ jws.signature.length = 32) ∧
      ∃ token, decodeBytes token (.ofKeys [escapedKey]) .empty (.signed (.hmac .sha256)) ⟨5, 6⟩ (.constant 0 0) =
          .ok [0xFF] ∧
        ∃ jws key, Jws.parse token = .ok jws ∧ Selects (.ofKeys [escapedKey]) jws.header .signature 5 key ∧
          Fits jws key.material := by
  constructor
  · let jws : Jws := ⟨{ alg := "HS256" }, [1, 2], [0xFF], Kind.sha256.hmac (List.replicate 32 7) [1, 2]⟩
    have accepted : Signature.verify (.hmac .sha256) escapedKey jws.signingInput jws.signature = .ok () :=
      Signature.verify_eq_ok.mpr (.hmac (by decide) rfl)
    have verified : jws.verify escapedKey = .ok [0xFF] := Jws.verify_of_accepted rfl accepted
    obtain ⟨fits, _⟩ := verifies_as_named.1 jws escapedKey [0xFF] verified
    obtain ⟨_, _, _, _, length⟩ := fits.shared .sha256 rfl
    exact ⟨jws, verified, length⟩
  · obtain ⟨token, made⟩ : ∃ token, Jws.signCompact (.hmac .sha256) escapedKey (.constant 3 0) [0xFF] = .ok token :=
      ⟨_, Jws.signCompact_eq_ok.mpr ⟨_, rfl, rfl⟩⟩
    have present : escapedKey ∈ (KeySet.ofKeys [escapedKey]).keys := List.mem_singleton.mpr rfl
    have verified : verifyStage (Bytes.ofText token) (.ofKeys [escapedKey]) (.signed (.hmac .sha256)) 5 = .ok [0xFF] :=
      verifyStage_signCompact (Or.inl rfl) (Or.inl (by decide)) present rfl rfl (Signature.trusted_symmetric _ _) rfl
        (fun _ => rfl) made
    have plain : received token .empty (.signed (.hmac .sha256)) 6 (.constant 0 0) = .ok (Bytes.ofText token) := rfl
    have decoded : decodeBytes token (.ofKeys [escapedKey]) .empty (.signed (.hmac .sha256)) ⟨5, 6⟩ (.constant 0 0) =
        .ok [0xFF] := (decodeBytes_of_signs rfl plain).trans verified
    obtain ⟨text, jws, key, opened, parsed, selected, fits, _⟩ :=
      verifies_as_named.2 token _ _ _ _ _ _ rfl decoded
    have same : text = token := Utf8.ofText_injective (Except.ok.inj opened).symm
    exact ⟨token, decoded, jws, key, same ▸ parsed, selected, fits⟩

end Token

end WebToken
