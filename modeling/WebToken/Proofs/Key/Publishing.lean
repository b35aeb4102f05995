import Mathlib.Data.List.Forall2
import WebToken.Proofs.Key.SetDocument

/-!
Publishing a set. The public set has the public half of each asymmetric key and nothing else: no document of it
names a secret member, and it finds and selects the halves of the keys that the whole set finds and selects.
-/

namespace WebToken

open Json

/-- A name that stands in a tree, at any depth. -/
inductive Json.Node.Names (name : String) : Node → Prop
  | here {members : List (Body × Node)} {ending : Ending} {key : Body} {item : Node} (present : (key, item) ∈ members)
      (named : key.read = .ok name) : Names name (.object members ending)
  | inMember {members : List (Body × Node)} {ending : Ending} {key : Body} {item : Node}
      (present : (key, item) ∈ members) (inside : Names name item) : Names name (.object members ending)
  | inItem {items : List Node} {ending : Ending} {item : Node} (present : item ∈ items) (inside : Names name item) :
      Names name (.array items ending)

namespace Material

variable {material : Material}

/-- All material but a shared secret has a public half. -/
theorem exists_public? (asymmetric : material.isSymmetric = false) :
    ∃ half, material.public? = some half ∧ half.isPublic = true := by
  cases material with
  | symmetric => cases asymmetric
  | _ => exact ⟨_, rfl, rfl⟩

/-- Public material is its own half, and no shared secret. -/
theorem public?_of_isPublic (hidden : material.isPublic = true) :
    material.public? = some material ∧ material.isSymmetric = false := by
  cases material with
  | rsaPublic => exact ⟨rfl, rfl⟩
  | ecPublic => exact ⟨rfl, rfl⟩
  | edPublic => exact ⟨rfl, rfl⟩
  | _ => cases hidden

end Material

namespace Jwk

/-- The members that hold secrets. -/
def secretMembers : List String := ["k", "d", "p", "q", "dp", "dq", "qi"]

/-- A document that has none of them. -/
structure Bare (jwk : Jwk) : Prop where
  k : jwk.k = none
  d : jwk.d = none
  p : jwk.p = none
  q : jwk.q = none
  dp : jwk.dp = none
  dq : jwk.dq = none
  qi : jwk.qi = none

/-- The tree of a key document. -/
def tree (jwk : Jwk) : Node :=
  .object (jwk.entries.map fun entry => (.quoted entry.1, .string (.quoted entry.2))) .closed

def setTree (jwks : List Jwk) : Node := .object [(.quoted "keys", .array (jwks.map tree) .closed)] .closed

theorem spells_write (jwk : Jwk) : Spells jwk.write jwk.tree := by
  refine .members (List.forall₂_map_left_iff.mpr (List.forall₂_map_right_iff.mpr (List.forall₂_same.mpr ?_)))
  exact fun entry _ => ⟨rfl, .quote entry.2⟩

theorem spells_writeSet (jwks : List Jwk) : Spells (writeSet jwks) (setTree jwks) := by
  refine .members (.cons ⟨rfl, .list ?_⟩ .nil)
  refine List.forall₂_map_left_iff.mpr (List.forall₂_map_right_iff.mpr (List.forall₂_same.mpr ?_))
  exact fun jwk _ => jwk.spells_write

theorem entry_of_names {jwk : Jwk} {name : String} (named : jwk.tree.Names name) :
    ∃ value, (name, value) ∈ jwk.entries := by
  cases named with
  | here present named =>
      obtain ⟨entry, there, same⟩ := List.mem_map.mp present
      obtain ⟨rfl, rfl⟩ := Prod.mk.inj same
      obtain rfl := Except.ok.inj (named.symm.trans (Body.read_quoted entry.1))
      exact ⟨entry.2, there⟩
  | inMember present inside =>
      obtain ⟨entry, _, same⟩ := List.mem_map.mp present
      obtain ⟨rfl, rfl⟩ := Prod.mk.inj same
      cases inside

theorem entry_of_names_set {jwks : List Jwk} {name : String} (named : (setTree jwks).Names name) :
    name = "keys" ∨ ∃ jwk ∈ jwks, ∃ value, (name, value) ∈ jwk.entries := by
  cases named with
  | here present named =>
      obtain ⟨rfl, _⟩ := Prod.mk.inj (List.mem_singleton.mp present)
      exact Or.inl (Except.ok.inj (named.symm.trans (Body.read_quoted "keys")))
  | inMember present inside =>
      obtain ⟨_, rfl⟩ := Prod.mk.inj (List.mem_singleton.mp present)
      cases inside with
      | inItem there inside =>
          obtain ⟨jwk, listed, rfl⟩ := List.mem_map.mp there
          exact Or.inr ⟨jwk, listed, entry_of_names inside⟩

theorem Bare.not_mem_entries {jwk : Jwk} (bare : jwk.Bare) {name value : String} (secret : name ∈ secretMembers) :
    (name, value) ∉ jwk.entries := by
  simp only [secretMembers, List.mem_cons, List.not_mem_nil, or_false] at secret
  rcases secret with rfl | rfl | rfl | rfl | rfl | rfl | rfl <;>
    simp [entries, bare.k, bare.d, bare.p, bare.q, bare.dp, bare.dq, bare.qi]

theorem bare_ofMaterial {material : Material} (hidden : material.isPublic = true) : (ofMaterial material).Bare := by
  cases material with
  | rsaPublic => constructor <;> rfl
  | ecPublic => constructor <;> rfl
  | edPublic => constructor <;> rfl
  | _ => cases hidden

end Jwk

namespace Key

variable {own key : Key}

theorem bare_toJwk (hidden : key.isPublic = true) : key.toJwk.Bare := by
  obtain ⟨k, d, p, q, dp, dq, qi⟩ := Jwk.bare_ofMaterial hidden
  exact ⟨k, d, p, q, dp, dq, qi⟩

/-- A key with the public half of the material of another one, and all else as there. -/
structure PublicHalf (own key : Key) : Prop where
  id : key.id = own.id
  use : key.use = own.use
  declared : key.declared = own.declared
  material : own.material.public? = some key.material

theorem PublicHalf.eq_toPublic (half : PublicHalf own key) : key = own.toPublic := by
  obtain ⟨id, use, declared, material⟩ := key
  obtain ⟨rfl, rfl, rfl, found⟩ := half
  rw [toPublic, found, Option.getD_some]

theorem publicHalf_toPublic (asymmetric : own.isSymmetric = false) : PublicHalf own own.toPublic := by
  obtain ⟨half, found, _⟩ := Material.exists_public? asymmetric
  refine ⟨rfl, rfl, rfl, ?_⟩
  rw [toPublic, found, Option.getD_some]

theorem isPublic_toPublic (asymmetric : own.isSymmetric = false) : own.toPublic.isPublic = true := by
  obtain ⟨half, found, hidden⟩ := Material.exists_public? asymmetric
  rwa [isPublic, toPublic, found, Option.getD_some]

theorem toPublic_of_isPublic (hidden : key.isPublic = true) : key.toPublic = key := by
  rw [toPublic, (Material.public?_of_isPublic hidden).1]
  rfl

end Key

namespace KeySet

variable {set other : KeySet} {key : Key} {use : KeyUse} {algorithm : String}

/-- The keys that have a public half. -/
def asymmetric (set : KeySet) : List Key := set.keys.filter fun key => !key.isSymmetric

theorem isSymmetric_of_mem_asymmetric (present : key ∈ set.asymmetric) : key.isSymmetric = false := by
  simpa using (List.mem_filter.mp present).2

theorem forall₂_keys_toPublic (set : KeySet) : List.Forall₂ Key.PublicHalf set.asymmetric set.toPublic.keys := by
  rw [keys_toPublic, List.forall₂_map_right_iff, asymmetric, List.forall₂_same]
  exact fun own present => Key.publicHalf_toPublic (isSymmetric_of_mem_asymmetric present)

theorem isPublic_of_mem_toPublic (present : key ∈ set.toPublic.keys) : key.isPublic = true := by
  obtain ⟨own, _, asymmetric, rfl⟩ := mem_keys_toPublic.mp present
  exact Key.isPublic_toPublic asymmetric

/-- What a set publishes hangs on the public halves alone. -/
theorem toPublic_congr
    (alike : List.Forall₂ (fun one other => ∃ half, Key.PublicHalf one half ∧ Key.PublicHalf other half)
      set.asymmetric other.asymmetric) :
    set.toPublic = other.toPublic := by
  have same :
      List.Forall₂ (fun one other => Key.toPublic one = Key.toPublic other) set.asymmetric other.asymmetric := by
    refine alike.imp ?_
    intro one other ⟨half, first, second⟩
    exact first.eq_toPublic.symm.trans second.eq_toPublic
  refine eq_of_keys ?_
  rw [keys_toPublic, keys_toPublic, ← List.forall₂_eq_eq_eq, List.forall₂_map_left_iff, List.forall₂_map_right_iff]
  exact same

theorem toPublic_toPublic (set : KeySet) : set.toPublic.toPublic = set.toPublic := by
  refine eq_of_keys ((keys_toPublic _).trans ?_)
  have all : (set.toPublic.keys.filter fun key => !key.isSymmetric) = set.toPublic.keys := by
    refine List.filter_eq_self.mpr fun key present => ?_
    have asymmetric : key.isSymmetric = false := (Material.public?_of_isPublic (isPublic_of_mem_toPublic present)).2
    rw [asymmetric, Bool.not_false]
  rw [all]
  exact (List.map_congr_left fun key present => Key.toPublic_of_isPublic (isPublic_of_mem_toPublic present)).trans
    (List.map_id _)

theorem byId?_toPublic (set : KeySet) (id : String) :
    set.toPublic.byId? id = ((set.byId? id).filter fun key => !key.isSymmetric).map Key.toPublic := by
  refine Option.ext fun key => ?_
  simp only [byId?_eq_some, mem_keys_toPublic, Option.map_eq_some_iff, Option.filter_eq_some_iff, Bool.not_eq_true']
  constructor
  · rintro ⟨named, ⟨own, present, asymmetric, rfl⟩, same⟩
    exact ⟨own, ⟨⟨named, present, same⟩, asymmetric⟩, rfl⟩
  · rintro ⟨own, ⟨⟨named, present, same⟩, asymmetric⟩, rfl⟩
    exact ⟨named, ⟨own, present, asymmetric, rfl⟩, same⟩

theorem candidates_toPublic
    (asymmetric : ∀ key ∈ set.keys, key.use = some use → key.algorithm = algorithm → key.isSymmetric = false) :
    set.toPublic.candidates use algorithm = (set.candidates use algorithm).map Key.toPublic := by
  rw [candidates, candidates, keys_toPublic, List.filter_map, List.filter_filter]
  refine congrArg (List.map Key.toPublic) (List.filter_congr fun key present => ?_)
  have declared : key.toPublic.algorithm = key.algorithm := rfl
  have used : key.toPublic.use = key.use := rfl
  rw [Function.comp_apply, declared, used, Bool.eq_iff_iff]
  simp only [Bool.and_eq_true, decide_eq_true_eq, Bool.not_eq_true']
  exact ⟨And.left, fun named => ⟨named, asymmetric key present named.1 named.2⟩⟩

theorem select?_toPublic
    (asymmetric : ∀ key ∈ set.keys, key.use = some use → key.algorithm = algorithm → key.isSymmetric = false)
    (second : Int) :
    set.toPublic.select? use algorithm second = (set.select? use algorithm second).map Key.toPublic := by
  rw [select?, select?, candidates_toPublic asymmetric, List.length_map, List.getElem?_map]

theorem ofBytes_toText (set : KeySet) :
    Document.ofBytes (Bytes.ofText set.toText) .ended = ⟨Jwk.setTree (set.keys.map Key.toJwk), none⟩ := by
  rw [toText, Bytes.ofText, String.toList_ofList]
  exact (Jwk.spells_writeSet _).ofBytes

theorem not_names_toPublic {name : String} (secret : name ∈ Jwk.secretMembers) :
    ¬(Jwk.setTree (set.toPublic.keys.map Key.toJwk)).Names name := by
  intro named
  rcases Jwk.entry_of_names_set named with rfl | ⟨_, listed, value, entry⟩
  · exact absurd secret (by decide)
  · obtain ⟨key, present, rfl⟩ := List.mem_map.mp listed
    exact (Key.bare_toJwk (isPublic_of_mem_toPublic present)).not_mem_entries secret entry

/-- The public set has one key for each asymmetric key, its public half, and no others. -/
structure Publishes (set : KeySet) : Prop where
  halves : List.Forall₂ Key.PublicHalf set.asymmetric set.toPublic.keys
  isPublic : ∀ key ∈ set.toPublic.keys, key.isSymmetric = false ∧ key.isPublic = true
  document : Document.ofBytes (Bytes.ofText set.toPublic.toText) .ended =
    ⟨Jwk.setTree (set.toPublic.keys.map Key.toJwk), none⟩
  /-- The document names no secret member anywhere. -/
  unnamed : ∀ name ∈ Jwk.secretMembers, ¬(Jwk.setTree (set.toPublic.keys.map Key.toJwk)).Names name
  /-- Sets whose asymmetric keys have the same halves publish the same. -/
  alike : ∀ other : KeySet,
    List.Forall₂ (fun one other => ∃ half, Key.PublicHalf one half ∧ Key.PublicHalf other half)
      set.asymmetric other.asymmetric → set.toPublic.toText = other.toPublic.toText
  again : set.toPublic.toPublic = set.toPublic
  /-- An identifier finds the half of the key that it finds in the whole set, unless that is symmetric. -/
  finds : ∀ id, set.toPublic.byId? id = ((set.byId? id).filter fun key => !key.isSymmetric).map Key.toPublic
  /-- Where no symmetric key has a use and an algorithm, the halves of the same keys take turns. -/
  selects : ∀ use algorithm,
    (∀ key ∈ set.keys, key.use = some use → key.algorithm = algorithm → key.isSymmetric = false) → ∀ second,
      set.toPublic.select? use algorithm second = (set.select? use algorithm second).map Key.toPublic

theorem publishes_halves (set : KeySet) : set.Publishes := by
  constructor
  case halves => exact forall₂_keys_toPublic set
  case isPublic =>
      intro key present
      have hidden := isPublic_of_mem_toPublic present
      exact ⟨(Material.public?_of_isPublic hidden).2, hidden⟩
  case document => exact ofBytes_toText set.toPublic
  case unnamed => exact fun name => not_names_toPublic
  case alike =>
      intro other alike
      rw [toPublic_congr alike]
  case again => exact toPublic_toPublic set
  case finds => exact byId?_toPublic set
  case selects =>
      intro use algorithm asymmetric
      exact select?_toPublic asymmetric

/-- The key of a seed. -/
def privateKey : Key := ⟨"p", some .signature, some "EdDSA", .edPrivate (List.replicate 32 7)⟩

/-- The public key of another seed. -/
def publicKey : Key := ⟨"q", some .signature, some "EdDSA", .edPublic (Ed25519.publicKey (List.replicate 32 9))⟩

theorem publishes_halves_selected :
    let set := ofKeys [.symmetric "s" [1], publicKey, privateKey]
    set.toPublic.byId? "s" = none ∧
      set.toPublic.byId? "p" =
        some ⟨"p", some .signature, some "EdDSA", .edPublic (Ed25519.publicKey (List.replicate 32 7))⟩ ∧
      set.toPublic.select? .signature "EdDSA" 1 = some publicKey ∧
      ¬(Jwk.setTree (set.toPublic.keys.map Key.toJwk)).Names "d" ∧
      set.toPublic.toText = (ofKeys [privateKey.toPublic, publicKey]).toPublic.toText := by
  intro set
  have publishes : set.Publishes := publishes_halves set
  have found : set.byId? "s" = some (.symmetric "s" [1]) ∧ set.byId? "p" = some privateKey := ⟨rfl, rfl⟩
  have selected : set.select? .signature "EdDSA" 1 = some publicKey := rfl
  have asymmetric : ∀ key ∈ set.keys, key.use = some .signature → key.algorithm = "EdDSA" →
      key.isSymmetric = false := by
    decide
  refine ⟨?_, ?_, ?_, publishes.unnamed "d" (by decide), publishes.alike _ ?_⟩
  · rw [publishes.finds, found.1]
    rfl
  · rw [publishes.finds, found.2]
    rfl
  · rw [publishes.selects _ _ asymmetric, selected]
    rfl
  · have first : set.asymmetric = [privateKey, publicKey] := rfl
    have second : (ofKeys [privateKey.toPublic, publicKey]).asymmetric = [privateKey.toPublic, publicKey] := rfl
    have half : Key.PublicHalf privateKey privateKey.toPublic := Key.publicHalf_toPublic rfl
    have again : Key.PublicHalf privateKey.toPublic privateKey.toPublic := Key.publicHalf_toPublic rfl
    have itself : Key.PublicHalf publicKey publicKey := Key.publicHalf_toPublic rfl
    rw [first, second]
    exact .cons ⟨_, half, again⟩ (.cons ⟨_, itself, itself⟩ .nil)

end KeySet

end WebToken
