import Mathlib.Data.List.Dedup
import Mathlib.Data.List.Perm.Lattice
import WebToken.Proofs.Key.SetDocument

/-!
How sets of keys come about. A set is made from keys or from a document, keys are added to it, and its public
half is a set again. Whatever was done, the set holds the last key that was added with each identifier, and
holds it under that identifier, in the order of the bytes of the identifiers.
-/

namespace WebToken.KeySet

/-- The keys of a document, in its order. -/
def keysOfText (text : String) : List Key :=
  match Jwk.setOfText text with
  | .ok jwks => jwks.filterMap fun jwk => (Key.ofJwk jwk).toOption
  | .error _ => []

/-- How a set comes about, with the keys that were added to it, the last one last. What makes a set anew adds
its keys to the empty one. -/
inductive Built : List Key → KeySet → Prop
  | empty : Built [] empty
  | ofKeys (keys : List Key) : Built keys (ofKeys keys)
  | ofText {text : String} {set : KeySet} (loaded : ofText text = .ok set) : Built (keysOfText text) set
  | insert {added : List Key} {set : KeySet} (built : Built added set) (key : Key) :
      Built (added ++ [key]) (set.insert key)
  | toPublic {added : List Key} {set : KeySet} (built : Built added set) :
      Built ((set.keys.filter fun key => !key.isSymmetric).map Key.toPublic) set.toPublic

/-- A key that was added, and no key with its identifier after it. -/
def Latest (key : Key) (added : List Key) : Prop :=
  ∃ before after, added = before ++ key :: after ∧ ∀ other ∈ after, other.id ≠ key.id

variable {set : KeySet} {text id name : String} {added : List Key} {key : Key}

theorem exists_setOfText (loaded : ofText text = .ok set) : ∃ jwks, Jwk.setOfText text = .ok jwks := by
  obtain ⟨found, read, finished⟩ := bind_eq_ok.mp loaded
  obtain ⟨jwks, listed, _⟩ := bind_eq_ok.mp read
  refine ⟨jwks, Json.read_eq_ok.mpr ⟨mapError_eq_ok.mp listed, ?_⟩⟩
  split at finished
  · assumption
  · cases finished

theorem ofKeys_keysOfText (loaded : ofText text = .ok set) : ofKeys (keysOfText text) = set := by
  obtain ⟨jwks, formed⟩ := exists_setOfText loaded
  obtain ⟨keys, read, rfl⟩ := (ofText_eq_ok formed).mp loaded
  have kept : jwks.filterMap (fun jwk => (Key.ofJwk jwk).toOption) = keys := by
    have found : (jwks.map Key.ofJwk).filterMap Except.toOption = keys := by
      rw [read, List.filterMap_map]
      exact List.filterMap_some
    rwa [List.filterMap_map] at found
  simp only [keysOfText, formed, kept]

/-- A set is the set of the keys that were added to it. -/
theorem Built.eq_ofKeys (built : Built added set) : set = KeySet.ofKeys added := by
  induction built with
  | empty => rfl
  | ofKeys => rfl
  | ofText loaded => exact (ofKeys_keysOfText loaded).symm
  | insert _ key same => rw [same, KeySet.ofKeys, KeySet.ofKeys, List.foldl_append, List.foldl_cons, List.foldl_nil]
  | toPublic => rfl

theorem mem_ofKeys : (name, key) ∈ (ofKeys added).table ↔ key.id = name ∧ Latest key added := by
  rw [Table.mem_iff_find?, find?_ofKeys_eq_some]
  constructor
  · rintro ⟨rfl, replaced⟩
    exact ⟨rfl, replaced⟩
  · rintro ⟨rfl, replaced⟩
    exact ⟨rfl, replaced⟩

theorem find?_ofKeys_eq_none : (ofKeys added).table.find? id = none ↔ ∀ key ∈ added, key.id ≠ id := by
  rw [find?_ofKeys, List.find?_eq_none]
  simp

theorem mem_names_ofKeys : name ∈ (ofKeys added).table.entries.names ↔ name ∈ added.map Key.id := by
  rw [Table.mem_names, ne_eq, find?_ofKeys_eq_none]
  simp

/-- A set has as many keys as identifiers were added. -/
theorem size_ofKeys (added : List Key) : (ofKeys added).size = (added.map Key.id).dedup.length := by
  have perm : (ofKeys added).table.entries.names.Perm (added.map Key.id).dedup := by
    rw [List.perm_ext_iff_of_nodup (Table.nodup_names _) (List.nodup_dedup _)]
    intro name
    rw [mem_names_ofKeys, List.mem_dedup]
  exact (List.length_map _).symm.trans perm.length_eq

/-- A set holds the last key that was added with each identifier, under that identifier and in the order of their
bytes; so it has as many keys as identifiers were added. -/
structure HoldsLatest (added : List Key) (set : KeySet) : Prop where
  entry : ∀ name key, (name, key) ∈ set.table ↔ key.id = name ∧ Latest key added
  ascending : set.keys.Pairwise fun one other => Bytes.ofText one.id < Bytes.ofText other.id
  size : set.size = (added.map Key.id).dedup.length
  length : set.keys.length = set.size
  finds : ∀ id, id ≠ "" → ∀ key, set.byId? id = some key ↔ key.id = id ∧ Latest key added
  absent : ∀ id, id ≠ "" → (set.byId? id = none ↔ ∀ key ∈ added, key.id ≠ id)
  /-- The empty identifier finds no key, even if one has it. -/
  unnamed : set.byId? "" = none

/-- Whatever was done to a set, it holds the last key that was added with each identifier. -/
theorem built_holds_latest (built : Built added set) : HoldsLatest added set := by
  obtain rfl := built.eq_ofKeys
  have lookup {id : String} (named : id ≠ "") : (ofKeys added).byId? id = (ofKeys added).table.find? id := by
    rw [byId?, if_neg (by simpa using named)]
  constructor
  case entry => exact fun _ _ => mem_ofKeys
  case ascending => exact ascending_bytes _
  case size => exact size_ofKeys added
  case length => exact List.length_map _
  case finds =>
      intro id named key
      rw [lookup named, ← Table.mem_iff_find?, mem_ofKeys]
  case absent =>
      intro id named
      rw [lookup named, find?_ofKeys_eq_none]
  case unnamed => rfl

/-- A public key without an identifier. -/
def unnamedPublicKey : Key := ⟨"", none, none, .edPublic (List.replicate 32 2)⟩

theorem built_holds_latest_unnamed :
    ∃ added set, Built added set ∧ set.table.find? "" = some unnamedPublicKey ∧ set.byId? "" = none ∧
      set.byId? "a" = none ∧ set.byId? "b" = some (.symmetric "b" [4]) ∧ set.size = 2 := by
  have made : Built _ (ofKeys [.symmetric "a" [1], unnamedPublicKey]).toPublic := (Built.ofKeys _).toPublic
  have kept : ((ofKeys [.symmetric "a" [1], unnamedPublicKey]).keys.filter fun key => !key.isSymmetric).map
      Key.toPublic = [unnamedPublicKey] := by decide
  rw [kept] at made
  have built := (made.insert (.symmetric "b" [3])).insert (.symmetric "b" [4])
  have holds := built_holds_latest built
  refine ⟨_, _, built, ?_, holds.unnamed, ?_, ?_, holds.size⟩
  · exact Table.mem_iff_find?.mp ((holds.entry _ _).mpr ⟨rfl, [], _, rfl, by decide⟩)
  · exact (holds.absent "a" (by decide)).mpr (by decide)
  · exact (holds.finds "b" (by decide) _).mpr ⟨rfl, [_, _], [], rfl, nofun⟩

end WebToken.KeySet
