import WebToken.Bytes

/-!
Random draws, given from outside. Each purpose has a source of its own, so the draws of one purpose
do not depend on how many another one takes.
-/

namespace WebToken

abbrev ByteSource := Nat → UInt8

def ByteSource.take (source : ByteSource) (length : Nat) : Bytes := (List.range length).map source

def ByteSource.takeNonzero (source : ByteSource) (length : Nat) : Bytes :=
  (source.take length).map fun byte => UInt8.ofNat (1 + byte.toNat % 255)

@[simp] theorem ByteSource.length_take (source : ByteSource) (length : Nat) :
    (source.take length).length = length := by simp [ByteSource.take]

/-- Any bytes may be drawn. -/
theorem ByteSource.exists_take (bytes : Bytes) : ∃ source : ByteSource, source.take bytes.length = bytes := by
  refine ⟨fun index => bytes.getD index 0, List.ext_getElem (by simp) fun index _ inside => ?_⟩
  simp [take, inside]

structure Draws where
  contentKey : ByteSource
  /-- The key that takes the place of one that cannot be had. -/
  standInKey : ByteSource
  contentIv : ByteSource
  sealedKeyIv : ByteSource
  passwordSalt : ByteSource
  encryptionPadding : ByteSource
  encryptionSeed : ByteSource
  signatureSalt : ByteSource
  /-- The scalar of an ephemeral key, before it is reduced. -/
  ephemeral : Nat
  /-- The nonce of a signature on P-521, before it is reduced. -/
  nonce : Nat

def Draws.constant (byte : UInt8) (number : Nat) : Draws :=
  let source : ByteSource := fun _ => byte
  ⟨source, source, source, source, source, source, source, source, number, number⟩

end WebToken
