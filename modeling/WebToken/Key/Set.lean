import WebToken.Key.Basic

/-!
Sets of keys: at most one key for each identifier, in the order of the identifiers. Keys are looked
up by identifier, or by use and declared algorithm; where several fit, the choice goes round with
time.
-/

namespace WebToken

/-- A set of keys, each under its own identifier. -/
structure KeySet where
  table : Table Key
  keyed : ∀ entry ∈ table, entry.1 = entry.2.id
  deriving DecidableEq, Repr

namespace KeySet

def empty : KeySet := ⟨.empty, List.forall_mem_nil _⟩

def insert (set : KeySet) (key : Key) : KeySet where
  table := set.table.insert key.id key
  keyed entry present := by
    rcases Table.mem_insert present with rfl | old
    · rfl
    · exact set.keyed entry old

/-- The set of keys given in any order; the last one with an identifier stays. -/
def ofKeys (keys : List Key) : KeySet := keys.foldl insert empty

def keys (set : KeySet) : List Key := set.table.values

def size (set : KeySet) : Nat := set.table.entries.length

def isEmpty (set : KeySet) : Bool := set.table.entries.isEmpty

/-- The key with an identifier. The empty identifier finds none. -/
def byId? (set : KeySet) (id : String) : Option Key :=
  if id.isEmpty then none else set.table.find? id

def candidates (set : KeySet) (use : KeyUse) (algorithm : String) : List Key :=
  set.keys.filter fun key => key.use = some use && key.algorithm = algorithm

/-- The candidate whose turn it is in a second. -/
def select? (set : KeySet) (use : KeyUse) (algorithm : String) (second : Int) : Option Key :=
  let found := set.candidates use algorithm
  found[(second % Int.ofNat found.length).toNat]?

def toPublic (set : KeySet) : KeySet :=
  ofKeys ((set.keys.filter fun key => !key.isSymmetric).map Key.toPublic)

/-- The set that documents describe, or the flaw of the first one that is no key. -/
def ofJwks (jwks : List Jwk) : Except KeyFlaw KeySet := ofKeys <$> jwks.mapM Key.ofJwk

def read (node : Json.Node) : Except (Json.Refusal KeyFlaw) KeySet := do
  let jwks ← (Jwk.readSet node).mapError .text
  (ofJwks jwks).mapError .content

def ofText (text : String) : Except (Json.Refusal KeyFlaw) KeySet :=
  Json.readFrom .ended read (Bytes.ofText text)

/-- The set of bytes from a source that may fail behind them. -/
def ofSource (bytes : Bytes) (fails : Bool) : Except (Json.Refusal KeyFlaw) KeySet :=
  Json.readFrom (if fails then .unreadable else .ended) read bytes

def toText (set : KeySet) : String := String.ofList (Jwk.writeSet (set.keys.map Key.toJwk))

end KeySet

/-- A set that is exchanged as a whole. -/
structure SharedKeySet where
  current : KeySet
  deriving DecidableEq, Repr

def SharedKeySet.replace (shared : SharedKeySet) (set : KeySet) : SharedKeySet × KeySet :=
  (⟨set⟩, shared.current)

end WebToken
