import WebToken.Key.Set
import WebToken.Suite

/-!
Sources: where the key and the algorithms of one stage come from. A source is asked when a token is
made, and may have no key to give.
-/

namespace WebToken

/-- A key and the algorithms to use it with. Only a source that skips its stage gives no key. -/
structure ResolvedKey where
  key : Option Key := none
  suite : Suite := {}
  deriving DecidableEq, Repr

inductive KeySource
  | skip
  | given (resolved : Option ResolvedKey)
  | signingById (id : String) (set : KeySet)
  | encryptionById (id : String) (content : ContentEncryption) (set : KeySet)
  | signingByAlgorithm (algorithm : SignatureAlgorithm) (set : KeySet)
  | encryptionByAlgorithm (algorithm : KeyAlgorithm) (content : ContentEncryption) (set : KeySet)
  deriving DecidableEq, Repr

namespace KeySource

/-- The source of a signing key by its algorithm. Without an algorithm the stage is skipped. -/
def forSigning (algorithm : Option SignatureAlgorithm) (set : KeySet) : KeySource :=
  match algorithm with
  | some algorithm => signingByAlgorithm algorithm set
  | none => skip

/-- The source of an encryption key by its algorithm. Without both algorithms the stage is skipped. -/
def forEncryption (algorithm : Option KeyAlgorithm) (content : Option ContentEncryption)
    (set : KeySet) : KeySource :=
  match algorithm, content with
  | some algorithm, some content => encryptionByAlgorithm algorithm content set
  | _, _ => skip

def resolve (second : Int) : KeySource → Option ResolvedKey
  | skip => some {}
  | given resolved => resolved
  | signingById id set => do
      let key ← set.byId? id
      if key.use ≠ some .signature then none
      else
        let algorithm ← SignatureAlgorithm.ofName? key.algorithm
        return ⟨some key, .signed algorithm⟩
  | encryptionById id content set => do
      let key ← set.byId? id
      if key.use ≠ some .encryption then none
      else
        let algorithm ← KeyAlgorithm.ofName? key.algorithm
        return ⟨some key, .encrypted algorithm content⟩
  | signingByAlgorithm algorithm set => do
      let key ← set.select? .signature algorithm.name second
      return ⟨some key, .signed algorithm⟩
  | encryptionByAlgorithm algorithm content set => do
      let key ← set.select? .encryption algorithm.name second
      return ⟨some key, .encrypted algorithm content⟩

end KeySource

end WebToken
