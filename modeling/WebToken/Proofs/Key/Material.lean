import WebToken.Key.Basic

/-!
Public halves: what of a key a recipient is known by, and the document that a public point of a
curve travels as.
-/

namespace WebToken

open Material

variable {material : Material} {key : Key}

theorem Key.material_toPublic_symmetric {secret : Bytes} :
    key.toPublic.material = .symmetric secret ↔ key.material = .symmetric secret := by
  rw [Key.toPublic]
  cases key.material <;> simp [public?]

theorem Key.public?_toPublic (key : Key) : key.toPublic.material.public? = key.material.public? := by
  rw [Key.toPublic]
  cases key.material <;> rfl

theorem Material.public?_eq_rsaPublic (hidden : material.isPublic = false) {recipient : Rsa.PublicKey} :
    material.public? = some (.rsaPublic recipient) ↔
      ∃ own, material = .rsaPrivate own ∧ own.toPublic = recipient := by
  cases material <;> simp_all [public?, isPublic]

theorem Material.public?_eq_ecPublic (hidden : material.isPublic = false) {curve : Curve} {point : Curve.Point} :
    material.public? = some (.ecPublic curve point) ↔
      ∃ secret, material = .ecPrivate curve secret ∧ curve.publicPoint secret = point := by
  cases material with
  | ecPrivate found secret =>
      simp only [public?, Option.some.injEq, ecPublic.injEq, ecPrivate.injEq]
      constructor
      · intro given
        obtain ⟨rfl, rfl⟩ := given
        exact ⟨secret, ⟨rfl, rfl⟩, rfl⟩
      · intro given
        obtain ⟨_, ⟨rfl, rfl⟩, rfl⟩ := given
        exact ⟨rfl, rfl⟩
  | _ => simp_all [public?, isPublic]

theorem Curve.ofName?_name (curve : Curve) : Curve.ofName? curve.name = some curve := by
  cases curve <;> rfl

theorem Curve.prime_lt (curve : Curve) : curve.prime < Nat.pow 256 curve.size := by
  cases curve <;> decide +kernel

theorem Jwk.material_ofMaterial_ecPublic {curve : Curve} {point : Curve.Point}
    (contained : curve.contains point = true) :
    (Jwk.ofMaterial (.ecPublic curve point)).material = .ok (.ecPublic curve point) := by
  have reduced : point.x < curve.prime ∧ point.y < curve.prime := by
    simp only [Curve.contains, Bool.and_eq_true, decide_eq_true_eq] at contained
    exact contained.1
  have number {coordinate : Nat} (bound : coordinate < curve.prime) :
      Bytes.toNat (Bytes.ofNat curve.size coordinate) = coordinate := by
    rw [Bytes.toNat_ofNat, Nat.mod_eq_of_lt (Nat.lt_trans bound curve.prime_lt)]
  have typed : ¬ "EC" = "oct" ∧ ¬ "EC" = "RSA" := by decide
  simp only [Jwk.ofMaterial, Jwk.material, typed, if_false, if_true, Jwk.ecMaterial, ok_bind, Curve.ofName?_name,
    Option.isSome_none, Bool.false_eq_true, Jwk.member, Jwk.sized, Base64Url.decode?_encode,
    Bytes.length_ofNat, ne_eq, not_true_eq_false, or_self, number reduced.1, number reduced.2, contained]

end WebToken
