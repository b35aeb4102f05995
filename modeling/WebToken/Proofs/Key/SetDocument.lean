import WebToken.Proofs.Json.Members
import WebToken.Proofs.Key.Document
import WebToken.Proofs.Key.RoundTrip
import WebToken.Proofs.Key.Set

/-!
Documents of key sets. A set is written so that it is read back as it was; a document makes a set of all of
its keys or of none.
-/

namespace WebToken

namespace Jwk

open Json

theorem reads_set (jwks : List Jwk) : Reads readSet (writeSet jwks) jwks := by
  have listed : Writes setFields [("keys", some (Text.list (jwks.map write)))] [] jwks :=
    .of (.list jwks fun jwk _ => jwk.reads) (.nil jwks)
  exact listed.read (by decide) Json.Record.skipOther

theorem setOfText_writeSet (jwks : List Jwk) : setOfText (String.ofList (writeSet jwks)) = .ok jwks := by
  obtain ⟨_, spelled, found, _⟩ := reads_set jwks
  rw [setOfText, Bytes.ofText, String.toList_ofList]
  exact (spelled.read readSet).trans found

end Jwk

namespace KeySet

variable {set : KeySet} {text id : String} {keys : List Key} {jwks : List Jwk} {key : Key}

/-- A set is known by its keys. -/
theorem eq_of_keys {one other : KeySet} (same : one.keys = other.keys) : one = other := by
  have tables : ∀ set : KeySet, set.table.entries = set.keys.map fun key => (key.id, key) := by
    intro set
    rw [keys, Table.values, List.map_map]
    refine (List.map_id _).symm.trans (List.map_congr_left fun entry present => ?_)
    exact Prod.ext (set.keyed entry present) rfl
  have listed : one.table.entries = other.table.entries := by rw [tables one, tables other, same]
  obtain ⟨table, _⟩ := one
  obtain ⟨otherTable, _⟩ := other
  obtain rfl : table = otherTable := Table.ext listed
  rfl

theorem ofKeys_keys (set : KeySet) : ofKeys set.keys = set := eq_of_keys (keys_ofKeys (ascending_keys set))

theorem find?_ofKeys (keys : List Key) (id : String) :
    (ofKeys keys).table.find? id = keys.reverse.find? (·.id == id) := by
  suffices added : ∀ set : KeySet, (keys.foldl insert set).table.find? id =
      (keys.reverse.find? (·.id == id)).or (set.table.find? id) from (added empty).trans Option.or_none
  induction keys with
  | nil => exact fun _ => rfl
  | cons key keys ih =>
      intro set
      rw [List.foldl_cons, ih, find?_insert, List.reverse_cons, List.find?_append, Option.or_assoc]
      by_cases same : id = key.id
      · simp [same]
      · simp [same, Ne.symm same]

/-- The last of several keys with an identifier is found. -/
theorem find?_ofKeys_eq_some : (ofKeys keys).table.find? id = some key ↔
    key.id = id ∧ ∃ before after, keys = before ++ key :: after ∧ ∀ other ∈ after, other.id ≠ id := by
  rw [find?_ofKeys, List.find?_eq_some_iff_append]
  constructor
  · intro ⟨same, after, before, cut, others⟩
    refine ⟨beq_iff_eq.mp same, before.reverse, after.reverse, ?_, fun other present => ?_⟩
    · rw [← List.reverse_reverse keys, cut]
      simp
    · simpa using others other (List.mem_reverse.mp present)
  · intro ⟨same, before, after, cut, others⟩
    refine ⟨beq_iff_eq.mpr same, after.reverse, before.reverse, ?_, fun other present => ?_⟩
    · rw [cut]
      simp
    · simpa using others other (List.mem_reverse.mp present)

/-- Reading a set is reading the keys, once the document has the form of one. -/
theorem ofText_of_setOfText (formed : Jwk.setOfText text = .ok jwks) :
    ofText text = (ofJwks jwks).mapError .content := by
  obtain ⟨found, finished⟩ := Json.read_eq_ok.mp formed
  have read : KeySet.read (Json.Document.ofBytes (Bytes.ofText text) .ended).root =
      (ofJwks jwks).mapError .content := by
    rw [KeySet.read, found]
    rfl
  rw [ofText, Json.readFrom, read, finished]
  exact bind_pure _

theorem ofText_eq_ok (formed : Jwk.setOfText text = .ok jwks) :
    ofText text = .ok set ↔ ∃ keys, jwks.map Key.ofJwk = keys.map .ok ∧ ofKeys keys = set := by
  simp only [ofText_of_setOfText formed, mapError_eq_ok, ofJwks, map_eq_ok, mapM_eq_ok]

/-- The set of a document has the last key with an identifier; a key without one counts under the empty text. -/
theorem find?_of_ofText (formed : Jwk.setOfText text = .ok jwks) (loaded : ofText text = .ok set) :
    set.table.find? id = some key ↔ ∃ before jwk after, jwks = before ++ jwk :: after ∧
      jwk.kid.getD "" = id ∧ (∀ other ∈ after, other.kid.getD "" ≠ id) ∧ Key.ofJwk jwk = .ok key := by
  obtain ⟨keys, read, rfl⟩ := (ofText_eq_ok formed).mp loaded
  rw [find?_ofKeys_eq_some]
  constructor
  · intro ⟨same, before, after, cut, others⟩
    subst cut
    rw [List.map_append, List.map_cons] at read
    obtain ⟨_, _, rfl, _, read⟩ := List.map_eq_append_iff.mp read
    obtain ⟨jwk, rest, rfl, found, restRead⟩ := List.map_eq_cons_iff.mp read
    have named : jwk.kid.getD "" = id := (Key.id_of_ofJwk found).trans same
    refine ⟨_, jwk, rest, rfl, named, ?_, found⟩
    intro other present
    obtain ⟨own, there, otherFound⟩ := List.mem_map.mp (restRead ▸ List.mem_map_of_mem present)
    rw [Key.id_of_ofJwk otherFound.symm]
    exact others own there
  · intro ⟨before, jwk, after, cut, same, others, found⟩
    subst cut
    rw [List.map_append, List.map_cons, found] at read
    obtain ⟨firstKeys, _, rfl, _, read⟩ := List.map_eq_append_iff.mp read.symm
    obtain ⟨own, rest, rfl, made, restRead⟩ := List.map_eq_cons_iff.mp read
    obtain rfl := Except.ok.inj made
    have named : own.id = id := (Key.id_of_ofJwk found).symm.trans same
    refine ⟨named, firstKeys, rest, rfl, ?_⟩
    intro other present
    obtain ⟨jwk, there, otherFound⟩ := List.mem_map.mp (restRead ▸ List.mem_map_of_mem present)
    rw [← Key.id_of_ofJwk otherFound]
    exact others jwk there

theorem exists_ofText_eq_ok (formed : Jwk.setOfText text = .ok jwks) :
    (∃ set, ofText text = .ok set) ↔ ∀ jwk ∈ jwks, ∃ material, jwk.material = .ok material := by
  simp only [ofText_eq_ok formed, ← mapM_eq_ok, ← Key.exists_ofJwk_eq_ok, ← exists_mapM_eq_ok]
  constructor
  · intro ⟨_, keys, read, _⟩
    exact ⟨keys, read⟩
  · intro ⟨keys, read⟩
    exact ⟨ofKeys keys, keys, read, rfl⟩

theorem ofText_eq_error (formed : Jwk.setOfText text = .ok jwks) {refusal : Json.Refusal KeyFlaw} :
    ofText text = .error refusal ↔ ∃ before jwk after flaw, jwks = before ++ jwk :: after ∧
      (∀ other ∈ before, ∃ material, other.material = .ok material) ∧ jwk.material = .error flaw ∧
      refusal = .content flaw := by
  simp only [ofText_of_setOfText formed, mapError_eq_error, ofJwks, map_eq_error, mapM_eq_error,
    Key.exists_ofJwk_eq_ok, Key.ofJwk_eq_error]
  constructor
  · intro ⟨flaw, ⟨before, jwk, after, cut, sound, first⟩, same⟩
    exact ⟨before, jwk, after, flaw, cut, sound, first, same.symm⟩
  · intro ⟨before, jwk, after, flaw, cut, sound, first, same⟩
    exact ⟨flaw, ⟨before, jwk, after, cut, sound, first⟩, same.symm⟩

/-- The text of a set whose keys come from documents is read as the set. -/
theorem ofText_toText (given : ∀ key ∈ set.keys, ∃ jwk, Key.ofJwk jwk = .ok key) : ofText set.toText = .ok set := by
  refine (ofText_eq_ok (Jwk.setOfText_writeSet _)).mpr ⟨set.keys, ?_, ofKeys_keys set⟩
  rw [List.map_map]
  refine List.map_congr_left fun key present => ?_
  obtain ⟨jwk, read⟩ := given key present
  have described : jwk.Describes key.material := Jwk.material_eq_ok.mp (Key.material_of_ofJwk read)
  exact Key.ofJwk_toJwk (Jwk.material_ofMaterial described)

/-- The text of a set is read as the set again, key by key. A document in the form of a set makes one exactly
if each of its keys has sound material, and then the set has the last key under each identifier; otherwise the
first key whose material is flawed says why it makes none. -/
theorem document_round_trip :
    (∀ set : KeySet, (∀ key ∈ set.keys, ∃ jwk, Key.ofJwk jwk = .ok key) → ofText set.toText = .ok set) ∧
    ∀ text jwks, Jwk.setOfText text = .ok jwks →
      ((∃ set, ofText text = .ok set) ↔ ∀ jwk ∈ jwks, ∃ material, jwk.material = .ok material) ∧
      (∀ set, ofText text = .ok set → ∀ id key, set.table.find? id = some key ↔
        ∃ before jwk after, jwks = before ++ jwk :: after ∧ jwk.kid.getD "" = id ∧
          (∀ other ∈ after, other.kid.getD "" ≠ id) ∧ Key.ofJwk jwk = .ok key) ∧
      ∀ refusal, ofText text = .error refusal ↔ ∃ before jwk after flaw, jwks = before ++ jwk :: after ∧
        (∀ other ∈ before, ∃ material, other.material = .ok material) ∧ jwk.material = .error flaw ∧
        refusal = .content flaw := by
  constructor
  · intro set given
    exact ofText_toText given
  · intro text jwks formed
    refine ⟨exists_ofText_eq_ok formed, ?_, ?_⟩
    · intro set loaded id key
      exact find?_of_ofText formed loaded
    · intro refusal
      exact ofText_eq_error formed

/-- Two keys without an identifier, of which the later says so, around one with an identifier. -/
def jwksWithSameId : List Jwk :=
  [{ kty := "oct", k := some "AQ" }, { kty := "oct", kid := some "a", k := some "Ag" },
    { kty := "oct", kid := some "", use := some .encryption, k := some "Aw" }]

/-- A key in front of two documents that are none. -/
def jwksWithoutMaterial : List Jwk := [{ kty := "oct", k := some "AQ" }, { kty := "oct" }, { kty := "none" }]

theorem document_round_trip_replaced :
    (∃ set, ofText (String.ofList (Jwk.writeSet jwksWithSameId)) = .ok set ∧ ofText set.toText = .ok set ∧
      set.table.find? "" = some ⟨"", some .encryption, none, .symmetric [3]⟩ ∧
      set.table.find? "a" = some ⟨"a", none, none, .symmetric [2]⟩) ∧
    ofText (String.ofList (Jwk.writeSet jwksWithoutMaterial)) = .error (.content (.missingMember "oct" "k")) := by
  have shared : ∀ text secret use kid, Base64Url.encode secret = text →
      Jwk.material { kty := "oct", use := use, kid := kid, k := some text } = .ok (.symmetric secret) := by
    intro text secret use kid spelled
    exact Jwk.material_eq_ok.mpr (.symmetric rfl (congrArg some spelled.symm))
  have first := shared "AQ" [1] none none (by decide)
  have named := shared "Ag" [2] none (some "a") (by decide)
  have last := shared "Aw" [3] (some .encryption) (some "") (by decide)
  obtain ⟨again, read⟩ := document_round_trip
  obtain ⟨loads, finds, _⟩ := read _ _ (Jwk.setOfText_writeSet jwksWithSameId)
  obtain ⟨_, _, refuses⟩ := read _ _ (Jwk.setOfText_writeSet jwksWithoutMaterial)
  have sound : ∀ jwk ∈ jwksWithSameId, ∃ material, jwk.material = .ok material := by
    simp only [jwksWithSameId, List.forall_mem_cons]
    exact ⟨⟨_, first⟩, ⟨_, named⟩, ⟨_, last⟩, List.forall_mem_nil _⟩
  obtain ⟨set, loaded⟩ := loads.mpr sound
  have found := finds set loaded
  refine ⟨⟨set, loaded, ?again, ?replaced, ?single⟩, ?refused⟩
  case again =>
      refine again set fun key present => ?_
      obtain ⟨_, jwk, _, _, _, _, read⟩ := (found key.id key).mp (mem_keys.mp present)
      exact ⟨jwk, read⟩
  case replaced =>
      refine (found _ _).mpr ⟨[_, _], _, [], rfl, rfl, ?_, Key.ofJwk_of_material last⟩
      exact List.forall_mem_nil _
  case single => exact (found _ _).mpr ⟨[_], _, [_], rfl, rfl, by decide, Key.ofJwk_of_material named⟩
  case refused =>
      refine (refuses _).mpr ⟨[_], _, [_], _, rfl, ?_, rfl, rfl⟩
      exact List.forall_mem_singleton.mpr ⟨_, first⟩

end KeySet

end WebToken
