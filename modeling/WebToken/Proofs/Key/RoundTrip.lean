import WebToken.Proofs.Key.Material

/-!
Key material and its documents. A document describes at most one key material, and what is written for
that material describes it again.
-/

namespace WebToken

theorem Bytes.toNat_minimal (number : Nat) : toNat (minimal number) = number := by
  have digits : number.log2 + 1 ≤ 8 * digitCount number := by
    rw [digitCount]
    omega
  have below : number < Nat.pow 256 (digitCount number) := by
    calc number
      _ < 2 ^ (number.log2 + 1) := Nat.lt_log2_self
      _ ≤ 2 ^ (8 * digitCount number) := Nat.pow_le_pow_right (by decide) digits
      _ = Nat.pow 256 (digitCount number) := by rw [Nat.pow_mul]; rfl
  rw [minimal, toNat_ofNat, Nat.mod_eq_of_lt below]

theorem Curve.ofName?_eq_some {name : String} {curve : Curve} :
    Curve.ofName? name = some curve ↔ curve.name = name := by
  constructor
  · intro found
    unfold ofName? at found
    have named := List.find?_some found
    exact beq_iff_eq.mp named
  · intro same
    subst same
    exact Curve.ofName?_name curve

theorem Curve.order_lt (curve : Curve) : curve.order < Nat.pow 256 curve.size := by
  cases curve <;> decide +kernel

theorem Rsa.PublicKey.eq_of_ofNumbers {n e : Nat} {key : PublicKey} (checked : ofNumbers n e = .ok key) :
    key = ⟨n, e⟩ := by
  obtain ⟨_, _, checked⟩ := bind_eq_ok.mp checked
  obtain ⟨_, _, made⟩ := bind_eq_ok.mp checked
  exact (Except.ok.inj made).symm

theorem Rsa.PrivateKey.eq_of_ofNumbers {n e d p q : Nat} {key : PrivateKey} (checked : ofNumbers n e d p q = .ok key) :
    key = ⟨n, e, d, p, q⟩ := by
  obtain ⟨_, _, checked⟩ := bind_eq_ok.mp checked
  obtain ⟨_, _, made⟩ := bind_eq_ok.mp checked
  exact (Except.ok.inj made).symm

namespace Jwk

variable {jwk : Jwk} {material : Material} {type name : String} {value : Option String} {bytes : Bytes}

theorem member_eq_ok : member type name value = .ok bytes ↔ value = some (Base64Url.encode bytes) := by
  cases value with
  | none => simp [member]
  | some text =>
      rw [Option.some.injEq, ← Base64Url.decode?_eq_some_iff]
      cases decoded : Base64Url.decode? text <;> simp [member, decoded]

theorem member_encode (type name : String) (bytes : Bytes) :
    member type name (some (Base64Url.encode bytes)) = .ok bytes := member_eq_ok.mpr rfl

/-- A member that holds a number, with any number of zeros in front. -/
def HoldsNumber (value : Option String) (number : Nat) : Prop :=
  ∃ bytes, value = some (Base64Url.encode bytes) ∧ Bytes.toNat bytes = number

theorem number_eq_ok {number : Nat} : Jwk.number name value = .ok number ↔ HoldsNumber value number := by
  simp only [Jwk.number, map_eq_ok, member_eq_ok, HoldsNumber]

theorem holdsNumber_shortest (number : Nat) : HoldsNumber (shortest number) number :=
  ⟨_, rfl, Bytes.toNat_minimal number⟩

/-- The material that a document describes. Members that do not belong to it say nothing. -/
inductive Describes (jwk : Jwk) : Material → Prop
  | symmetric {secret : Bytes} (typed : jwk.kty = "oct") (k : jwk.k = some (Base64Url.encode secret)) :
      Describes jwk (.symmetric secret)
  | rsaPublic {key : Rsa.PublicKey} (typed : jwk.kty = "RSA") (n : HoldsNumber jwk.n key.n)
      (e : HoldsNumber jwk.e key.e)
      (d : jwk.d = none) (checked : Rsa.PublicKey.ofNumbers key.n key.e = .ok key) : Describes jwk (.rsaPublic key)
  | rsaPrivate {key : Rsa.PrivateKey} (typed : jwk.kty = "RSA") (n : HoldsNumber jwk.n key.n)
      (e : HoldsNumber jwk.e key.e)
      (d : HoldsNumber jwk.d key.d) (p : HoldsNumber jwk.p key.p) (q : HoldsNumber jwk.q key.q)
      (checked : Rsa.PrivateKey.ofNumbers key.n key.e key.d key.p key.q = .ok key) : Describes jwk (.rsaPrivate key)
  | ecPublic {curve : Curve} {x y : Bytes} (typed : jwk.kty = "EC") (named : jwk.crv = some curve.name)
      (xRead : jwk.x = some (Base64Url.encode x)) (yRead : jwk.y = some (Base64Url.encode y)) (d : jwk.d = none)
      (xSized : x.length = curve.size) (ySized : y.length = curve.size)
      (contained : curve.contains ⟨Bytes.toNat x, Bytes.toNat y⟩ = true) :
      Describes jwk (.ecPublic curve ⟨Bytes.toNat x, Bytes.toNat y⟩)
  | ecPrivate {curve : Curve} {secret : Bytes} (typed : jwk.kty = "EC") (named : jwk.crv = some curve.name)
      (d : jwk.d = some (Base64Url.encode secret)) (least : minScalarLength ≤ secret.length)
      (most : secret.length ≤ curve.size) (positive : 0 < Bytes.toNat secret)
      (below : Bytes.toNat secret < curve.order) :
      Describes jwk (.ecPrivate curve (Bytes.toNat secret))
  | edPublic {key : Bytes} (typed : jwk.kty = "OKP") (named : jwk.crv = some "Ed25519")
      (x : jwk.x = some (Base64Url.encode key)) (d : jwk.d = none) (sized : key.length = 32)
      (point : Ed25519.decompress? key ≠ none) : Describes jwk (.edPublic key)
  | edPrivate {seed key : Bytes} (typed : jwk.kty = "OKP") (named : jwk.crv = some "Ed25519")
      (x : jwk.x = some (Base64Url.encode key)) (d : jwk.d = some (Base64Url.encode seed)) (sized : seed.length = 32)
      (keySized : key.length = 32) (point : Ed25519.decompress? key ≠ none) (own : Ed25519.publicKey seed = key) :
      Describes jwk (.edPrivate seed)

theorem describes_of_rsaMaterial (typed : jwk.kty = "RSA") (found : jwk.rsaMaterial = .ok material) :
    jwk.Describes material := by
  obtain ⟨n, nRead, found⟩ := bind_eq_ok.mp found
  obtain ⟨e, eRead, found⟩ := bind_eq_ok.mp found
  split at found
  · rename_i absent
    obtain ⟨key, checked, rfl⟩ := map_eq_ok.mp found
    have checked := mapError_eq_ok.mp checked
    obtain rfl := Rsa.PublicKey.eq_of_ofNumbers checked
    exact .rsaPublic typed (number_eq_ok.mp nRead) (number_eq_ok.mp eRead) (Option.isNone_iff_eq_none.mp absent) checked
  · obtain ⟨d, dRead, found⟩ := bind_eq_ok.mp found
    obtain ⟨p, pRead, found⟩ := bind_eq_ok.mp found
    obtain ⟨q, qRead, found⟩ := bind_eq_ok.mp found
    obtain ⟨key, checked, rfl⟩ := map_eq_ok.mp found
    have checked := mapError_eq_ok.mp checked
    obtain rfl := Rsa.PrivateKey.eq_of_ofNumbers checked
    exact .rsaPrivate typed (number_eq_ok.mp nRead) (number_eq_ok.mp eRead) (number_eq_ok.mp dRead)
      (number_eq_ok.mp pRead) (number_eq_ok.mp qRead) checked

theorem describes_of_ecMaterial (typed : jwk.kty = "EC") (found : jwk.ecMaterial = .ok material) :
    jwk.Describes material := by
  unfold ecMaterial at found
  cases named : jwk.crv with
  | none =>
      rw [named] at found
      cases found
  | some name =>
      simp only [named, ok_bind] at found
      cases known : Curve.ofName? name with
      | none => simp [known] at found
      | some curve =>
          obtain rfl := Curve.ofName?_eq_some.mp known
          simp only [known] at found
          split at found
          · obtain ⟨secret, dRead, found⟩ := bind_eq_ok.mp found
            split at found
            · rename_i sound
              obtain ⟨least, most, positive, below⟩ := sound
              obtain rfl := Except.ok.inj found
              exact .ecPrivate typed named (member_eq_ok.mp dRead) least most positive below
            · cases found
          · rename_i absent
            obtain ⟨x, xRead, found⟩ := bind_eq_ok.mp found
            obtain ⟨y, yRead, found⟩ := bind_eq_ok.mp found
            split at found
            · cases found
            · rename_i sized
              split at found
              · rename_i contained
                obtain rfl := Except.ok.inj found
                simp only [ne_eq, not_or, Decidable.not_not] at sized
                obtain ⟨xSized, ySized⟩ := sized
                exact .ecPublic typed named (member_eq_ok.mp xRead) (member_eq_ok.mp yRead) (by simpa using absent)
                  xSized ySized contained
              · cases found

theorem describes_of_edMaterial (typed : jwk.kty = "OKP") (found : jwk.edMaterial = .ok material) :
    jwk.Describes material := by
  unfold edMaterial at found
  cases named : jwk.crv with
  | none =>
      rw [named] at found
      cases found
  | some name =>
      simp only [named] at found
      split at found
      · cases found
      rename_i known
      obtain rfl := Decidable.not_not.mp known
      obtain ⟨x, xRead, found⟩ := bind_eq_ok.mp found
      split at found
      · cases found
      rename_i sized
      split at found
      · cases found
      rename_i point
      split at found
      · rename_i absent
        obtain rfl := Except.ok.inj found
        exact .edPublic typed named (member_eq_ok.mp xRead) (by simpa using absent) (Decidable.not_not.mp sized)
          (by simpa using point)
      · obtain ⟨seed, dRead, found⟩ := bind_eq_ok.mp found
        split at found
        · cases found
        rename_i seedSized
        split at found
        · cases found
        rename_i matched
        obtain rfl := Except.ok.inj found
        exact .edPrivate typed named (member_eq_ok.mp xRead) (member_eq_ok.mp dRead) (Decidable.not_not.mp seedSized)
          (Decidable.not_not.mp sized) (by simpa using point) (Decidable.not_not.mp matched)

theorem describes_of_material (found : jwk.material = .ok material) : jwk.Describes material := by
  unfold Jwk.material at found
  split at found
  · rename_i typed
    obtain ⟨secret, kRead, rfl⟩ := map_eq_ok.mp found
    exact .symmetric typed (member_eq_ok.mp kRead)
  split at found
  · exact describes_of_rsaMaterial ‹_› found
  split at found
  · exact describes_of_ecMaterial ‹_› found
  split at found
  · exact describes_of_edMaterial ‹_› found
  · cases found

theorem material_of_describes (described : jwk.Describes material) : jwk.material = .ok material := by
  have types : ¬"RSA" = "oct" ∧ ¬"EC" = "oct" ∧ ¬"EC" = "RSA" ∧ ¬"OKP" = "oct" ∧ ¬"OKP" = "RSA" ∧ ¬"OKP" = "EC" := by
    decide
  cases described with
  | symmetric typed k =>
      simp only [Jwk.material, typed, if_true, member_eq_ok.mpr k]
      rfl
  | @rsaPublic key typed n e d checked =>
      simp only [Jwk.material, typed, types, if_true, if_false, rsaMaterial, number_eq_ok.mpr n, number_eq_ok.mpr e,
        ok_bind, d, Option.isNone_none, checked]
      rfl
  | @rsaPrivate key typed n e d p q checked =>
      obtain ⟨_, present, _⟩ := id d
      simp only [Jwk.material, typed, types, if_true, if_false, rsaMaterial, number_eq_ok.mpr n, number_eq_ok.mpr e,
        number_eq_ok.mpr d, number_eq_ok.mpr p, number_eq_ok.mpr q, ok_bind, checked]
      rw [present]
      rfl
  | ecPublic typed named xRead yRead d xSized ySized contained =>
      simp [Jwk.material, typed, ecMaterial, named, ok_bind, Curve.ofName?_name, d, member_eq_ok.mpr xRead,
        member_eq_ok.mpr yRead, xSized, ySized, contained]
  | ecPrivate typed named d least most positive below =>
      simp [Jwk.material, typed, ecMaterial, named, ok_bind, Curve.ofName?_name, d, member_encode, least, most,
        positive, below]
  | edPublic typed named x d sized point =>
      simp [Jwk.material, typed, edMaterial, named, ok_bind, d, x, member_encode, sized, point]
      rfl
  | edPrivate typed named x d sized keySized point own =>
      simp [Jwk.material, typed, edMaterial, named, ok_bind, d, x, member_encode, sized, keySized, point, own]
      rfl

theorem material_eq_ok : jwk.material = .ok material ↔ jwk.Describes material :=
  ⟨describes_of_material, material_of_describes⟩

theorem toNat_sized {curve : Curve} {number : Nat} (below : number < Nat.pow 256 curve.size) :
    Bytes.toNat (Bytes.ofNat curve.size number) = number := by
  rw [Bytes.toNat_ofNat, Nat.mod_eq_of_lt below]

/-- What is written for the material of a document describes the material again. -/
theorem describes_ofMaterial (described : jwk.Describes material) : (ofMaterial material).Describes material := by
  cases described with
  | symmetric => exact .symmetric rfl rfl
  | rsaPublic _ _ _ _ checked => exact .rsaPublic rfl (holdsNumber_shortest _) (holdsNumber_shortest _) rfl checked
  | rsaPrivate _ _ _ _ _ _ checked =>
      exact .rsaPrivate rfl (holdsNumber_shortest _) (holdsNumber_shortest _) (holdsNumber_shortest _)
        (holdsNumber_shortest _) (holdsNumber_shortest _) checked
  | @ecPublic curve x y _ _ _ _ _ xSized ySized contained =>
      have xWritten : Bytes.ofNat curve.size (Bytes.toNat x) = x := xSized ▸ Bytes.ofNat_toNat x
      have yWritten : Bytes.ofNat curve.size (Bytes.toNat y) = y := ySized ▸ Bytes.ofNat_toNat y
      refine .ecPublic rfl rfl ?_ ?_ rfl xSized ySized contained
      · simp only [ofMaterial, sized, xWritten]
      · simp only [ofMaterial, sized, yWritten]
  | @ecPrivate curve secret _ _ _ _ _ positive below =>
      -- However short the scalar was given, it is written in the size of the curve.
      have kept := toNat_sized (Nat.lt_trans below curve.order_lt)
      have least : minScalarLength ≤ curve.size := by cases curve <;> decide
      have written : (ofMaterial (.ecPrivate curve (Bytes.toNat secret))).Describes
          (.ecPrivate curve (Bytes.toNat (Bytes.ofNat curve.size (Bytes.toNat secret)))) := by
        refine .ecPrivate rfl rfl rfl ?_ ?_ ?_ ?_
        · simpa using least
        · simp
        · rwa [kept]
        · rwa [kept]
      rwa [kept] at written
  | edPublic _ _ _ _ sized point => exact .edPublic rfl rfl rfl rfl sized point
  | edPrivate _ _ _ _ sized keySized point own =>
      subst own
      exact .edPrivate rfl rfl rfl rfl sized keySized point rfl

theorem material_ofMaterial (described : jwk.Describes material) : (ofMaterial material).material = .ok material :=
  material_eq_ok.mpr (describes_ofMaterial described)

namespace Describes

theorem keyType (described : jwk.Describes material) : material.keyType = jwk.kty := by
  cases described <;> simp_all [Material.keyType]

theorem isSymmetric_iff (described : jwk.Describes material) : material.isSymmetric = true ↔ jwk.kty = "oct" := by
  cases described <;> simp_all [Material.isSymmetric]

theorem isPublic_iff (described : jwk.Describes material) (asymmetric : jwk.kty ≠ "oct") :
    material.isPublic = true ↔ jwk.d = none := by
  cases described with
  | symmetric typed => exact absurd typed asymmetric
  | rsaPrivate _ _ _ d =>
      obtain ⟨_, present, _⟩ := d
      simp [Material.isPublic, present]
  | _ => simp_all [Material.isPublic]

end Describes

/-- Only a shared secret is written as one, and only a private half has the secret member of its type. -/
theorem secrets_ofMaterial (material : Material) :
    ((ofMaterial material).k.isSome = true ↔ material.isSymmetric = true) ∧
    ((ofMaterial material).d.isSome = true ↔ material.isSymmetric = false ∧ material.isPublic = false) := by
  cases material <;> simp [ofMaterial, Material.isSymmetric, Material.isPublic, shortest, sized]

end Jwk

theorem Key.ofJwk_eq_ok {jwk : Jwk} {key : Key} :
    ofJwk jwk = .ok key ↔
      jwk.material = .ok key.material ∧ jwk.kid.getD "" = key.id ∧ jwk.use = key.use ∧ jwk.alg = key.declared := by
  obtain ⟨id, use, declared, material⟩ := key
  simp only [ofJwk, bind_eq_ok]
  constructor
  · intro ⟨found, read, made⟩
    cases made
    exact ⟨read, rfl, rfl, rfl⟩
  · intro ⟨read, id, use, declared⟩
    subst id use declared
    exact ⟨material, read, rfl⟩

theorem Key.ofJwk_of_material {jwk : Jwk} {material : Material} (found : jwk.material = .ok material) :
    ofJwk jwk = .ok ⟨jwk.kid.getD "", jwk.use, jwk.alg, material⟩ :=
  ofJwk_eq_ok.mpr ⟨found, rfl, rfl, rfl⟩

theorem Key.material_of_ofJwk {jwk : Jwk} {key : Key} (read : ofJwk jwk = .ok key) :
    jwk.material = .ok key.material :=
  (ofJwk_eq_ok.mp read).1

theorem Key.id_of_ofJwk {jwk : Jwk} {key : Key} (read : ofJwk jwk = .ok key) : jwk.kid.getD "" = key.id :=
  (ofJwk_eq_ok.mp read).2.1

theorem Key.exists_ofJwk_eq_ok {jwk : Jwk} :
    (∃ key, ofJwk jwk = .ok key) ↔ ∃ material, jwk.material = .ok material := by
  constructor
  · intro ⟨key, read⟩
    exact ⟨key.material, material_of_ofJwk read⟩
  · intro ⟨material, found⟩
    exact ⟨_, ofJwk_of_material found⟩

theorem Key.ofJwk_eq_error {jwk : Jwk} {flaw : KeyFlaw} :
    ofJwk jwk = .error flaw ↔ jwk.material = .error flaw := by
  rw [ofJwk, bind_eq_error]
  exact or_iff_left nofun

/-- A key whose material is written soundly is read back from its document, without an identifier too. -/
theorem Key.ofJwk_toJwk {key : Key} (written : (Jwk.ofMaterial key.material).material = .ok key.material) :
    ofJwk key.toJwk = .ok key := by
  refine ofJwk_eq_ok.mpr ⟨written, ?_, rfl, rfl⟩
  by_cases named : key.id = "" <;> simp [toJwk, named]

/-- Key material survives its document. The material of a document has the type that the document states, and
is private exactly if the document holds a secret; what is written for it is read back as the same material,
holds the secrets that the material has, and serves as the document of any key with this material. -/
theorem Jwk.material_round_trip {jwk : Jwk} {material : Material} (found : jwk.material = .ok material) :
    (material.keyType = jwk.kty ∧ (material.isSymmetric = true ↔ jwk.kty = "oct") ∧
      (jwk.kty ≠ "oct" → (material.isPublic = false ↔ jwk.d.isSome = true))) ∧
    ((ofMaterial material).material = .ok material ∧
      ofMaterial <$> (ofMaterial material).material = .ok (ofMaterial material)) ∧
    (((ofMaterial material).k.isSome = true ↔ material.isSymmetric = true) ∧
      ((ofMaterial material).d.isSome = true ↔ material.isSymmetric = false ∧ material.isPublic = false)) ∧
    (∃ key, Key.ofJwk jwk = .ok key ∧ key.material = material) ∧
    ∀ key : Key, key.material = material → Key.ofJwk key.toJwk = .ok key := by
  have described : jwk.Describes material := material_eq_ok.mp found
  have written : (ofMaterial material).material = .ok material := material_ofMaterial described
  refine ⟨⟨described.keyType, described.isSymmetric_iff, ?hidden⟩, ⟨written, ?again⟩, secrets_ofMaterial material,
    ?loads, ?keys⟩
  case hidden =>
      intro asymmetric
      rw [← Bool.not_eq_true, described.isPublic_iff asymmetric, Option.isSome_iff_ne_none]
  case again =>
      rw [written]
      rfl
  case loads => exact ⟨_, Key.ofJwk_of_material found, rfl⟩
  case keys =>
      intro key same
      subst same
      exact Key.ofJwk_toJwk written

/-- A document for the scalar 300, shorter than its curve, with a member of another type and a point of
another key. -/
def Jwk.shortScalar : Jwk :=
  { kty := "EC", k := some "AQ", crv := some "P-256", x := some "?"
    d := some (Base64Url.encode (List.replicate 22 0 ++ [1, 44])) }

theorem Jwk.describes_shortScalar : Jwk.shortScalar.Describes (.ecPrivate .p256 300) := by
  let secret : Bytes := List.replicate 22 0 ++ [1, 44]
  have least : minScalarLength ≤ secret.length := by decide
  have most : secret.length ≤ Curve.p256.size := by decide
  have positive : 0 < Bytes.toNat secret := by decide
  have below : Bytes.toNat secret < Curve.p256.order := by decide
  exact .ecPrivate rfl rfl rfl least most positive below

theorem Jwk.material_round_trip_short :
    Jwk.shortScalar.material = .ok (.ecPrivate .p256 300) ∧ Jwk.shortScalar.kid = none ∧
      (ofMaterial (.ecPrivate .p256 300)).material = .ok (.ecPrivate .p256 300) ∧
      (ofMaterial (.ecPrivate .p256 300)).d ≠ Jwk.shortScalar.d ∧
      (ofMaterial (.ecPrivate .p256 300)).k = none ∧
      Key.ofJwk (Key.toJwk ⟨"", none, none, .ecPrivate .p256 300⟩) = .ok ⟨"", none, none, .ecPrivate .p256 300⟩ := by
  have found : Jwk.shortScalar.material = .ok (.ecPrivate .p256 300) := material_eq_ok.mpr Jwk.describes_shortScalar
  obtain ⟨_, ⟨written, _⟩, ⟨shared, _⟩, _, again⟩ := material_round_trip found
  have spelledLonger : (ofMaterial (.ecPrivate .p256 300)).d ≠ Jwk.shortScalar.d := by decide +kernel
  have notShared : (ofMaterial (.ecPrivate .p256 300)).k = none := by
    refine Option.not_isSome_iff_eq_none.mp fun present => ?_
    have symmetric : (Material.ecPrivate .p256 300).isSymmetric = true := shared.mp present
    cases symmetric
  exact ⟨found, rfl, written, spelledLonger, notShared, again _ rfl⟩

end WebToken
