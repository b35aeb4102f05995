import WebToken.Bytes
import WebToken.Number.Modular

/-!
RSA keys: which numbers make a key, and the two operations that undo each other.

A public key is a modulus and an exponent. A private key adds the secret exponent and the two
primes, from which the parameters of the faster private operation are computed.
-/

namespace WebToken.Rsa

inductive KeyFlaw
  | modulusTooLarge
  | exponentTooLarge
  | exponentTooSmall
  | modulus
  | exponent
  | prime
  deriving DecidableEq, Repr

def KeyFlaw.message : KeyFlaw → String
  | modulusTooLarge => "modulus too large"
  | exponentTooLarge => "public exponent too large"
  | exponentTooSmall => "public exponent too small"
  | modulus => "invalid modulus"
  | exponent => "invalid exponent"
  | prime => "invalid prime value"

structure PublicKey where
  n : Nat
  e : Nat
  deriving DecidableEq, Repr

/-- A private key with its two primes. -/
structure PrivateKey where
  n : Nat
  e : Nat
  d : Nat
  p : Nat
  q : Nat
  deriving DecidableEq, Repr

def maxModulusBits : Nat := 4096

def maxExponent : Nat := Nat.pow 2 33 - 1

def bitCount (number : Nat) : Nat := if number = 0 then 0 else number.log2 + 1

def checkSize (n : Nat) : Except KeyFlaw Unit :=
  if bitCount n > maxModulusBits then .error .modulusTooLarge else .ok ()

def checkPublic (n e : Nat) : Except KeyFlaw Unit :=
  if e ≥ Nat.pow 2 64 then .error .exponentTooLarge
  else if e ≥ n || n % 2 = 0 then .error .modulus
  else if e % 2 = 0 then .error .exponent
  else if e < 2 then .error .exponentTooSmall
  else if e > maxExponent then .error .exponentTooLarge
  else .ok ()

/-- Checks the secret numbers of a key whose public ones are sound: the primes multiply to the
modulus and the exponents undo each other modulo one less than each prime. -/
def checkPrivate (n e d p q : Nat) : Except KeyFlaw Unit :=
  if p < 2 || q < 2 then .error .prime
  else if p * q ≠ n then .error .modulus
  else if d * e % (p - 1) = 1 % (p - 1) && d * e % (q - 1) = 1 % (q - 1) then .ok ()
  else .error .exponent

def PublicKey.ofNumbers (n e : Nat) : Except KeyFlaw PublicKey := do
  checkSize n
  checkPublic n e
  return ⟨n, e⟩

/-- The private key with these numbers. Its owner chose the modulus, so any size will do. -/
def PrivateKey.ofNumbers (n e d p q : Nat) : Except KeyFlaw PrivateKey := do
  checkPublic n e
  checkPrivate n e d p q
  return ⟨n, e, d, p, q⟩

def PrivateKey.toPublic (key : PrivateKey) : PublicKey := ⟨key.n, key.e⟩

/-- What the private operation modulo the primes needs: the secret exponent reduced for each prime
and the inverse of the second prime modulo the first. -/
structure Residues where
  dp : Nat
  dq : Nat
  inverse : Nat

def PrivateKey.residues? (key : PrivateKey) : Option Residues :=
  (Modular.inverse? key.q key.p).map fun inverse =>
    ⟨key.d % (key.p - 1), key.d % (key.q - 1), inverse⟩

def PublicKey.size (key : PublicKey) : Nat := (bitCount key.n + 7) / 8

def PublicKey.apply (key : PublicKey) (number : Nat) : Nat := Modular.power number key.e key.n

/-- The private operation, by residues modulo the primes where there are any. -/
def PrivateKey.apply (key : PrivateKey) (number : Nat) : Nat :=
  match key.residues? with
  | none => Modular.power number key.d key.n
  | some residues =>
      let first := Modular.power number residues.dp key.p
      let second := Modular.power number residues.dq key.q
      second + Modular.sub first (second % key.p) key.p * residues.inverse % key.p * key.q

inductive Failure
  | messageTooLong
  | internal
  | decryption
  deriving DecidableEq, Repr

def Failure.message : Failure → String
  | messageTooLong => "message too long"
  | internal => "internal error"
  | decryption => "decryption error"

/-- The private operation on a number below the modulus, checked by undoing it. -/
def PrivateKey.applyChecked (key : PrivateKey) (number : Nat) : Except Failure Nat :=
  if number ≥ key.n then .error .decryption
  else
    let result := key.apply number
    if key.toPublic.apply result = number then .ok result else .error .internal

end WebToken.Rsa
