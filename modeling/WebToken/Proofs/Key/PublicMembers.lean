import WebToken.Proofs.Key.Publishing
import WebToken.Proofs.Key.RoundTrip
import WebToken.Proofs.Rsa.Key

/-!
The public members of a private key's document, against those that are published of the key. The numbers of an RSA key
and the public key beside a seed are checked; the point beside a secret scalar is not looked at.
-/

namespace WebToken.Jwk

/-- The public members of a document are those of a published one: two numbers, a point, or a public key. -/
inductive Agrees (jwk published : Jwk) : Prop
  | numbers {n e : Nat} (typed : jwk.kty = "RSA") (nGiven : HoldsNumber jwk.n n) (eGiven : HoldsNumber jwk.e e)
      (nPublished : HoldsNumber published.n n) (ePublished : HoldsNumber published.e e) : Agrees jwk published
  | point (typed : jwk.kty = "EC") (x : jwk.x = published.x) (y : jwk.y = published.y) : Agrees jwk published
  | key (typed : jwk.kty = "OKP") (x : jwk.x = published.x) : Agrees jwk published

variable {jwk : Jwk} {material half : Material}

/-- Only a point can be another than the published one. -/
theorem Describes.agrees (described : jwk.Describes material) (secret : material.isSymmetric = false)
    (hidden : material.isPublic = false) (halved : material.public? = some half) (pointless : jwk.kty ≠ "EC") :
    jwk.Agrees (ofMaterial half) := by
  cases described with
  | symmetric => cases secret
  | rsaPublic => cases hidden
  | ecPublic => cases hidden
  | edPublic => cases hidden
  | ecPrivate typed => exact absurd typed pointless
  | @rsaPrivate key typed n e =>
      obtain rfl := Option.some.inj halved
      exact .numbers typed n e (holdsNumber_shortest _) (holdsNumber_shortest _)
  | edPrivate typed _ x _ _ _ _ own =>
      obtain rfl := Option.some.inj halved
      exact .key typed (by rw [x, ← own]; rfl)

/-- The material of a scalar does not depend on the point beside it. -/
theorem Describes.replace_point (described : jwk.Describes material) (typed : jwk.kty = "EC")
    (hidden : material.isPublic = false) (x y : Option String) : { jwk with x, y }.Describes material := by
  cases described with
  | ecPrivate typed named d least most positive below => exact .ecPrivate typed named d least most positive below
  | ecPublic => cases hidden
  | symmetric other => exact absurd (other.symm.trans typed) (by decide)
  | rsaPublic other => exact absurd (other.symm.trans typed) (by decide)
  | rsaPrivate other => exact absurd (other.symm.trans typed) (by decide)
  | edPublic other => exact absurd (other.symm.trans typed) (by decide)
  | edPrivate other => exact absurd (other.symm.trans typed) (by decide)

/-- Numbers that do not fit together make no key. -/
theorem material_of_unfit {n e d p q : Nat} (typed : jwk.kty = "RSA") (nGiven : HoldsNumber jwk.n n)
    (eGiven : HoldsNumber jwk.e e) (dGiven : HoldsNumber jwk.d d) (pGiven : HoldsNumber jwk.p p)
    (qGiven : HoldsNumber jwk.q q) (unfit : ¬Rsa.PrivateKey.Consistent ⟨n, e, d, p, q⟩) :
    ∃ flaw, jwk.material = .error (.rsaPrivate flaw) := by
  cases checked : Rsa.PrivateKey.ofNumbers n e d p q with
  | ok key => exact absurd (Rsa.PrivateKey.eq_of_ofNumbers checked ▸ Rsa.PrivateKey.ofNumbers_consistent checked) unfit
  | error flaw =>
      refine ⟨flaw, ?_⟩
      obtain ⟨_, present, _⟩ := id dGiven
      simp only [Jwk.material, typed, rsaMaterial, number_eq_ok.mpr nGiven, number_eq_ok.mpr eGiven,
        number_eq_ok.mpr dGiven, number_eq_ok.mpr pGiven, number_eq_ok.mpr qGiven, ok_bind, checked]
      rw [present]
      rfl

/-- A public key that a seed does not have is refused beside the seed. -/
theorem material_of_foreign_key {seed : Bytes} (typed : jwk.kty = "OKP") (given : jwk.d = some (Base64Url.encode seed))
    (foreign : jwk.x ≠ some (Base64Url.encode (Ed25519.publicKey seed))) : ∃ flaw, jwk.material = .error flaw := by
  cases found : jwk.material with
  | error flaw => exact ⟨flaw, rfl⟩
  | ok material =>
      cases material_eq_ok.mp found with
      | edPublic _ _ _ absent => cases absent.symm.trans given
      | edPrivate _ _ x d _ _ _ own =>
          obtain rfl := Base64Url.encode_injective (Option.some.inj (d.symm.trans given))
          exact absurd (own ▸ x) foreign
      | symmetric other => exact absurd (other.symm.trans typed) (by decide)
      | rsaPublic other => exact absurd (other.symm.trans typed) (by decide)
      | rsaPrivate other => exact absurd (other.symm.trans typed) (by decide)
      | ecPublic other => exact absurd (other.symm.trans typed) (by decide)
      | ecPrivate other => exact absurd (other.symm.trans typed) (by decide)

theorem material_of_mismatch {seed key : Bytes} (typed : jwk.kty = "OKP") (named : jwk.crv = some "Ed25519")
    (x : jwk.x = some (Base64Url.encode key)) (d : jwk.d = some (Base64Url.encode seed)) (sized : seed.length = 32)
    (keySized : key.length = 32) (point : Ed25519.decompress? key ≠ none) (foreign : Ed25519.publicKey seed ≠ key) :
    jwk.material = .error .edMismatch := by
  simp [Jwk.material, typed, edMaterial, named, ok_bind, d, x, member_encode, sized, keySized, point, foreign]
  rfl

theorem agrees_replace_point {published : Jwk} (typed : jwk.kty = "EC") {x y : Option String} :
    { jwk with x, y }.Agrees published ↔ x = published.x ∧ y = published.y := by
  constructor
  · intro agrees
    cases agrees with
    | point _ x y => exact ⟨x, y⟩
    | numbers other => exact absurd (typed.symm.trans other) (by decide)
    | key other => exact absurd (typed.symm.trans other) (by decide)
  · exact fun same => .point typed same.1 same.2

/-- The document of a private key carries the public members that are published of the key, but for points: the numbers
of an RSA key fit together, and a public key is the one of the seed beside it. Documents where they do not are refused.
Of the points beside a secret scalar only one is published, but any of them is accepted, and so is none. -/
theorem private_agrees (jwk : Jwk) :
    (∀ material, jwk.material = .ok material → material.isSymmetric = false → material.isPublic = false →
      ∃ half, material.public? = some half ∧
        (jwk.kty ≠ "EC" → jwk.Agrees (ofMaterial half)) ∧
        (jwk.kty = "EC" → ∀ x y : Option String, { jwk with x, y }.material = .ok material ∧
          ({ jwk with x, y }.Agrees (ofMaterial half) ↔ x = (ofMaterial half).x ∧ y = (ofMaterial half).y))) ∧
    (∀ key, jwk.material = .ok (.rsaPrivate key) → key.Consistent) ∧
    (∀ n e d p q, jwk.kty = "RSA" → HoldsNumber jwk.n n → HoldsNumber jwk.e e → HoldsNumber jwk.d d →
      HoldsNumber jwk.p p → HoldsNumber jwk.q q → ¬Rsa.PrivateKey.Consistent ⟨n, e, d, p, q⟩ →
      ∃ flaw, jwk.material = .error (.rsaPrivate flaw)) ∧
    (∀ seed, jwk.kty = "OKP" → jwk.d = some (Base64Url.encode seed) →
      jwk.x ≠ some (Base64Url.encode (Ed25519.publicKey seed)) → ∃ flaw, jwk.material = .error flaw) ∧
    ∀ seed key, jwk.kty = "OKP" → jwk.crv = some "Ed25519" → jwk.x = some (Base64Url.encode key) →
      jwk.d = some (Base64Url.encode seed) → seed.length = 32 → key.length = 32 → Ed25519.decompress? key ≠ none →
      Ed25519.publicKey seed ≠ key → jwk.material = .error .edMismatch := by
  refine ⟨?halves, ?numbers, ?unfit, ?foreign, ?mismatch⟩
  case halves =>
      intro material found secret hidden
      have described : jwk.Describes material := material_eq_ok.mp found
      obtain ⟨half, halved, _⟩ := Material.exists_public? secret
      refine ⟨half, halved, ?checked, ?unchecked⟩
      case checked => exact described.agrees secret hidden halved
      case unchecked =>
          intro typed x y
          have still : { jwk with x, y }.Describes material := described.replace_point typed hidden x y
          exact ⟨material_eq_ok.mpr still, agrees_replace_point typed⟩
  case numbers =>
      intro key found
      cases material_eq_ok.mp found with
      | rsaPrivate _ _ _ _ _ _ checked => exact Rsa.PrivateKey.ofNumbers_consistent checked
  case unfit =>
      intro n e d p q typed nGiven eGiven dGiven pGiven qGiven unfit
      exact material_of_unfit typed nGiven eGiven dGiven pGiven qGiven unfit
  case foreign =>
      intro seed typed given foreign
      exact material_of_foreign_key typed given foreign
  case mismatch =>
      intro seed key typed named x d sized keySized point foreign
      exact material_of_mismatch typed named x d sized keySized point foreign

/-- The document of an RSA key with small primes and another modulus beside them. -/
def smallRsa (modulus : Nat) : Jwk :=
  { kty := "RSA", n := shortest modulus, e := shortest 3, d := shortest 7, p := shortest 3, q := shortest 11 }

/-- A seed of zeros with the base point of its curve beside it, which is the public key of another. -/
def foreignSeed : Jwk :=
  { kty := "OKP", crv := some "Ed25519", x := some (Base64Url.encode (0x58 :: List.replicate 31 0x66))
    d := some (Base64Url.encode (List.replicate 32 0)) }

theorem private_agrees_small :
    (smallRsa 33).Agrees (ofMaterial (.rsaPublic ⟨33, 3⟩)) ∧ Rsa.PrivateKey.Consistent ⟨33, 3, 7, 3, 11⟩ ∧
      (∃ flaw, (smallRsa 35).material = .error (.rsaPrivate flaw)) ∧
      (∃ flaw, { foreignSeed with x := none }.material = .error flaw) ∧
      foreignSeed.material = .error .edMismatch ∧
      { shortScalar with x := none }.material = .ok (.ecPrivate .p256 300) := by
  have small : (smallRsa 33).material = .ok (.rsaPrivate ⟨33, 3, 7, 3, 11⟩) := by
    have checked : Rsa.PrivateKey.ofNumbers 33 3 7 3 11 = .ok ⟨33, 3, 7, 3, 11⟩ := rfl
    refine material_eq_ok.mpr (.rsaPrivate rfl ?_ ?_ ?_ ?_ ?_ checked) <;> exact holdsNumber_shortest _
  have short : shortScalar.material = .ok (.ecPrivate .p256 300) := material_eq_ok.mpr describes_shortScalar
  obtain ⟨halves, consistent, _⟩ := private_agrees (smallRsa 33)
  obtain ⟨half, halved, agrees, _⟩ := halves _ small rfl rfl
  obtain rfl := Option.some.inj halved
  obtain ⟨_, _, unfit, _⟩ := private_agrees (smallRsa 35)
  obtain ⟨_, _, _, foreign, _⟩ := private_agrees { foreignSeed with x := none }
  obtain ⟨_, _, _, _, mismatch⟩ := private_agrees foreignSeed
  obtain ⟨scalarHalves, _⟩ := private_agrees shortScalar
  obtain ⟨_, _, _, anyPoint⟩ := scalarHalves _ short rfl rfl
  refine ⟨agrees (by decide), consistent _ small, ?modulus, ?missing, ?seed, ?pointless⟩
  case modulus =>
      have apart : ¬Rsa.PrivateKey.Consistent ⟨35, 3, 7, 3, 11⟩ := fun fits => absurd fits.factors (by decide)
      refine unfit 35 3 7 3 11 rfl ?_ ?_ ?_ ?_ ?_ apart <;> exact holdsNumber_shortest _
  case missing => exact foreign (List.replicate 32 0) rfl rfl nofun
  case seed =>
      have point : Ed25519.decompress? (0x58 :: List.replicate 31 0x66) ≠ none := by decide +kernel
      have another : Ed25519.publicKey (List.replicate 32 0) ≠ 0x58 :: List.replicate 31 0x66 := by decide +kernel
      exact mismatch _ _ rfl rfl rfl rfl rfl rfl point another
  case pointless =>
      obtain ⟨read, _⟩ := anyPoint rfl none shortScalar.y
      exact read

/-- The secret scalar 2 with the generator beside it, which is the public point of the scalar 1. -/
def foreignPoint : Jwk := { ofMaterial (.ecPublic .p256 Curve.p256.generator) with d := sized .p256 2 }

/-- A key is accepted with the point of another beside it, and its own point is published. -/
theorem private_agrees_foreign :
    foreignPoint.material = .ok (.ecPrivate .p256 2) ∧
      ∃ half, Material.public? (.ecPrivate .p256 2) = some half ∧ ¬foreignPoint.Agrees (ofMaterial half) := by
  refine ⟨?_, _, rfl, fun agrees => ?_⟩
  · exact material_eq_ok.mpr
      (@Describes.ecPrivate _ .p256 (Bytes.ofNat 32 2) rfl rfl rfl (by decide) (by decide) (by decide) (by decide))
  · cases agrees with
    | point _ x => exact absurd x (by decide +kernel)
    | numbers other => exact absurd other (by decide)
    | key other => exact absurd other (by decide)

end WebToken.Jwk
