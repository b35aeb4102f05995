import WebToken.Cipher.Aes

/-!
AES key wrap: key data in halves of eight bytes is encrypted six times over, each half together with
a running register that starts from a fixed value. Unwrapping runs the steps backwards and accepts
only if the register comes back to that value.
-/

namespace WebToken.KeyWrap

open Aes (KeySize Schedule Block Column)

structure Half where
  left : Column
  right : Column
  deriving DecidableEq, Repr

namespace Half

def toBytes (half : Half) : Bytes := half.left.toBytes ++ half.right.toBytes

/-- The half of the first eight bytes; missing bytes are zero. -/
def ofBytes (bytes : Bytes) : Half := ⟨.ofBytes bytes, .ofBytes (bytes.drop 4)⟩

def sum (one other : Half) : Half := ⟨one.left.sum other.left, one.right.sum other.right⟩

end Half

def halvesOf (count : Nat) (bytes : Bytes) : List Half := Bytes.pieces 8 Half.ofBytes count bytes

def checkValue : Half := ⟨⟨0xA6, 0xA6, 0xA6, 0xA6⟩, ⟨0xA6, 0xA6, 0xA6, 0xA6⟩⟩

abbrev Register := Half × List Half

/-- Encrypts a half together with the register, and adds the number of the step to the register. -/
def step (keys : Schedule) (number : Nat) (register half : Half) : Half × Half :=
  let block := keys.encrypt ⟨register.left, register.right, half.left, half.right⟩
  (Half.sum ⟨block.c0, block.c1⟩ (.ofBytes (Bytes.ofNat 8 number)), ⟨block.c2, block.c3⟩)

def unstep (keys : Schedule) (number : Nat) (register half : Half) : Half × Half :=
  let before := register.sum (.ofBytes (Bytes.ofNat 8 number))
  let block := keys.decrypt ⟨before.left, before.right, half.left, half.right⟩
  (⟨block.c0, block.c1⟩, ⟨block.c2, block.c3⟩)

def pass (keys : Schedule) : (number : Nat) → (register : Half) → List Half → Register
  | _, register, [] => (register, [])
  | number, register, half :: rest =>
      let (register, half) := step keys number register half
      let (register, rest) := pass keys (number + 1) register rest
      (register, half :: rest)

def unpass (keys : Schedule) : (number : Nat) → (register : Half) → List Half → Register
  | _, register, [] => (register, [])
  | number, register, half :: rest =>
      let (register, rest) := unpass keys (number + 1) register rest
      let (register, half) := unstep keys number register half
      (register, half :: rest)

/-- `count` passes over `size` halves, when `done` passes came before. -/
def passes (keys : Schedule) (size : Nat) : (count done : Nat) → Register → Register
  | 0, _, state => state
  | count + 1, done, state =>
      passes keys size count (done + 1) (pass keys (size * done + 1) state.1 state.2)

def unpasses (keys : Schedule) (size : Nat) : (count done : Nat) → Register → Register
  | 0, _, state => state
  | count + 1, done, state =>
      let (register, halves) := unpasses keys size count (done + 1) state
      unpass keys (size * done + 1) register halves

def toBytes (state : Register) : Bytes := state.1.toBytes ++ state.2.flatMap Half.toBytes

/-- Wraps key data of two halves or more, none for other lengths. -/
def wrap? (size : KeySize) (key data : Bytes) : Option Bytes :=
  if data.length % 8 ≠ 0 || data.length < 16 then none
  else
    let halves := halvesOf (data.length / 8) data
    some (toBytes (passes (Aes.schedule size key) halves.length 6 0 (checkValue, halves)))

/-- The key data of a wrapping, none if it is not one. -/
def unwrap? (size : KeySize) (key wrapped : Bytes) : Option Bytes :=
  if wrapped.length % 8 ≠ 0 || wrapped.length < 24 then none
  else
    let halves := halvesOf (wrapped.length / 8 - 1) (wrapped.drop 8)
    let (register, data) :=
      unpasses (Aes.schedule size key) halves.length 6 0 (.ofBytes wrapped, halves)
    if register = checkValue then some (data.flatMap Half.toBytes) else none

end WebToken.KeyWrap
