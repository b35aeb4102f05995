import WebToken.Cipher.KeyWrap
import WebToken.Proofs.Cipher.Aes

/-!
Wrapping and unwrapping a key undo each other: every step, every pass and all passes run backwards, and
so the texts that are accepted are those that key data is wrapped as.
-/

namespace WebToken.KeyWrap

open Aes

variable (keys : Schedule)

theorem Half.sum_sum_cancel (half other : Half) : (half.sum other).sum other = half := by
  simp only [Half.sum, Column.sum, UInt8.xor_assoc, UInt8.xor_self, UInt8.xor_zero]

theorem unstep_step (number : Nat) (register half : Half) :
    unstep keys number (step keys number register half).1 (step keys number register half).2 =
      (register, half) := by
  have decrypted := Schedule.decrypt_encrypt keys ⟨register.left, register.right, half.left, half.right⟩
  simp only [step, unstep, Half.sum_sum_cancel, decrypted]

theorem step_unstep (number : Nat) (register half : Half) :
    step keys number (unstep keys number register half).1 (unstep keys number register half).2 =
      (register, half) := by
  have encrypted := Schedule.encrypt_decrypt keys ⟨(register.sum (.ofBytes (Bytes.ofNat 8 number))).left,
    (register.sum (.ofBytes (Bytes.ofNat 8 number))).right, half.left, half.right⟩
  rw [step, unstep, encrypted, Half.sum_sum_cancel]

theorem unpass_pass (number : Nat) (register : Half) (halves : List Half) :
    unpass keys number (pass keys number register halves).1 (pass keys number register halves).2 =
      (register, halves) := by
  induction halves generalizing number register with
  | nil => rfl
  | cons half rest ih => simp only [pass, unpass, ih, unstep_step]

/-- An unwrapping pass takes the last half first, so a pass meets its steps in the order that undoes them. -/
theorem pass_unpass (number : Nat) (register : Half) (halves : List Half) :
    pass keys number (unpass keys number register halves).1 (unpass keys number register halves).2 =
      (register, halves) := by
  induction halves generalizing number with
  | nil => rfl
  | cons half rest ih => simp only [pass, unpass, step_unstep, ih]

theorem length_pass (number : Nat) (register : Half) (halves : List Half) :
    (pass keys number register halves).2.length = halves.length := by
  induction halves generalizing number register with
  | nil => rfl
  | cons half rest ih => simp only [pass, List.length_cons, ih]

theorem length_unpass (number : Nat) (register : Half) (halves : List Half) :
    (unpass keys number register halves).2.length = halves.length := by
  induction halves generalizing number with
  | nil => rfl
  | cons half rest ih => simp only [unpass, List.length_cons, ih]

theorem unpasses_passes (size count done : Nat) (state : Register) :
    unpasses keys size count done (passes keys size count done state) = state := by
  induction count generalizing done state with
  | zero => rfl
  | succ count ih => simp only [passes, unpasses, ih, unpass_pass]

theorem passes_unpasses (size count done : Nat) (state : Register) :
    passes keys size count done (unpasses keys size count done state) = state := by
  induction count generalizing done with
  | zero => rfl
  | succ count ih => simp only [passes, unpasses, pass_unpass, ih]

theorem length_passes (size count done : Nat) (state : Register) :
    (passes keys size count done state).2.length = state.2.length := by
  induction count generalizing done state with
  | zero => rfl
  | succ count ih => simp only [passes, ih, length_pass]

theorem length_unpasses (size count done : Nat) (state : Register) :
    (unpasses keys size count done state).2.length = state.2.length := by
  induction count generalizing done with
  | zero => rfl
  | succ count ih => simp only [unpasses, length_unpass, ih]

@[simp] theorem Half.length_toBytes (half : Half) : half.toBytes.length = 8 := rfl

theorem Half.ofBytes_toBytes (half : Half) (rest : Bytes) : Half.ofBytes (half.toBytes ++ rest) = half := rfl

theorem Half.toBytes_ofBytes {bytes : Bytes} (enough : 8 ≤ bytes.length) :
    (Half.ofBytes bytes).toBytes = bytes.take 8 := by
  rw [Half.toBytes, Half.ofBytes, Column.toBytes_ofBytes (Nat.le_trans (by decide) enough),
    Column.toBytes_ofBytes (by rw [List.length_drop]; omega), ← List.take_add]

theorem length_toBytes (state : Register) : (toBytes state).length = 8 + 8 * state.2.length := by
  rw [toBytes, List.length_append, Half.length_toBytes, Bytes.length_flatMap_write Half.length_toBytes]

theorem halvesOf_flatMap (halves : List Half) (rest : Bytes) :
    halvesOf halves.length (halves.flatMap Half.toBytes ++ rest) = halves :=
  Bytes.pieces_flatMap_write Half.length_toBytes Half.ofBytes_toBytes halves rest

theorem flatMap_halvesOf {bytes : Bytes} {count : Nat} (whole : bytes.length = 8 * count) :
    (halvesOf count bytes).flatMap Half.toBytes = bytes :=
  Bytes.flatMap_write_pieces (fun _ enough => Half.toBytes_ofBytes enough) whole

/-- A text of whole halves is the first of them as the register and the others behind it. -/
theorem exists_toBytes {bytes : Bytes} {count : Nat} (whole : bytes.length = 8 * (count + 1)) :
    ∃ state : Register, state.2.length = count ∧ toBytes state = bytes := by
  refine ⟨(.ofBytes bytes, halvesOf count (bytes.drop 8)), Bytes.length_pieces _ _, ?_⟩
  have behind : (bytes.drop 8).length = 8 * count := by
    rw [List.length_drop]
    omega
  rw [toBytes, Half.toBytes_ofBytes (by omega), flatMap_halvesOf behind, List.take_append_drop]

variable {size : KeySize} {key data wrapped : Bytes}

theorem wrap?_eq_some :
    wrap? size key data = some wrapped ↔ ∃ halves : List Half, 2 ≤ halves.length ∧
      halves.flatMap Half.toBytes = data ∧
      toBytes (passes (schedule size key) halves.length 6 0 (checkValue, halves)) = wrapped := by
  unfold wrap?
  split
  case isTrue refused =>
      refine ⟨nofun, fun ⟨halves, two, same, _⟩ => ?_⟩
      have length := Bytes.length_flatMap_write Half.length_toBytes halves
      rw [same] at length
      simp only [Bool.or_eq_true, decide_eq_true_eq] at refused
      omega
  case isFalse sized =>
      simp only [Bool.or_eq_true, decide_eq_true_eq, not_or, ne_eq, Decidable.not_not, Nat.not_lt] at sized
      obtain ⟨whole, long⟩ := sized
      rw [Option.some.injEq]
      constructor
      · intro made
        have count : (halvesOf (data.length / 8) data).length = data.length / 8 := Bytes.length_pieces _ _
        exact ⟨_, by omega, flatMap_halvesOf (by omega), made⟩
      · rintro ⟨halves, _, rfl, made⟩
        have length := Bytes.length_flatMap_write Half.length_toBytes halves
        have count : (halves.flatMap Half.toBytes).length / 8 = halves.length := by omega
        have read := halvesOf_flatMap halves []
        rw [List.append_nil] at read
        rw [count, read]
        exact made

theorem unwrap?_toBytes {state : Register} (two : 2 ≤ state.2.length) :
    unwrap? size key (toBytes state) =
      if (unpasses (schedule size key) state.2.length 6 0 state).1 = checkValue then
        some ((unpasses (schedule size key) state.2.length 6 0 state).2.flatMap Half.toBytes)
      else none := by
  have length := length_toBytes state
  have number : (toBytes state).length / 8 - 1 = state.2.length := by omega
  have accepted : ((toBytes state).length % 8 ≠ 0 || (toBytes state).length < 24) = false := by
    simp
    omega
  have register : Half.ofBytes (toBytes state) = state.1 := Half.ofBytes_toBytes state.1 _
  have halves : halvesOf state.2.length ((toBytes state).drop 8) = state.2 := by
    rw [toBytes, List.drop_left' (Half.length_toBytes state.1)]
    simpa using halvesOf_flatMap state.2 []
  rw [unwrap?, accepted, number, halves, register]
  rfl

theorem unwrap?_eq_some :
    unwrap? size key wrapped = some data ↔ ∃ (state : Register) (halves : List Half), 2 ≤ state.2.length ∧
      toBytes state = wrapped ∧ unpasses (schedule size key) state.2.length 6 0 state = (checkValue, halves) ∧
      halves.flatMap Half.toBytes = data := by
  constructor
  · intro opened
    have sized : wrapped.length % 8 = 0 ∧ 24 ≤ wrapped.length := by
      by_contra other
      rw [unwrap?, if_pos (by simp; omega)] at opened
      cases opened
    obtain ⟨state, count, rfl⟩ := exists_toBytes (by omega : wrapped.length = 8 * (wrapped.length / 8 - 1 + 1))
    have two : 2 ≤ state.2.length := by omega
    rw [unwrap?_toBytes two] at opened
    split at opened
    · rename_i checked
      exact ⟨state, _, two, rfl, Prod.ext checked rfl, Option.some.inj opened⟩
    · cases opened
  · rintro ⟨state, halves, two, rfl, opened, rfl⟩
    rw [unwrap?_toBytes two, opened, if_pos rfl]

/-- Unwrapping accepts exactly what key data is wrapped as. -/
theorem unwrap?_eq_some_iff_wrap? : unwrap? size key wrapped = some data ↔ wrap? size key data = some wrapped := by
  rw [unwrap?_eq_some, wrap?_eq_some]
  constructor
  · rintro ⟨state, halves, two, made, opened, given⟩
    have count := length_unpasses (schedule size key) state.2.length 6 0 state
    have back := passes_unpasses (schedule size key) state.2.length 6 0 state
    rw [opened] at count back
    dsimp only at count
    exact ⟨halves, by rwa [count], given, by rw [count, back, made]⟩
  · rintro ⟨halves, two, given, made⟩
    have count := length_passes (schedule size key) halves.length 6 0 (checkValue, halves)
    have back := unpasses_passes (schedule size key) halves.length 6 0 (checkValue, halves)
    dsimp only at count
    exact ⟨passes (schedule size key) halves.length 6 0 (checkValue, halves), halves, by rwa [count], made,
      by rw [count, back], given⟩

theorem length_of_wrap? (made : wrap? size key data = some wrapped) : wrapped.length = data.length + 8 := by
  obtain ⟨halves, _, rfl, rfl⟩ := wrap?_eq_some.mp made
  rw [length_toBytes, length_passes, Bytes.length_flatMap_write Half.length_toBytes, Nat.add_comm]

theorem exists_wrap? : (∃ wrapped, wrap? size key data = some wrapped) ↔ data.length % 8 = 0 ∧ 16 ≤ data.length := by
  rw [← Option.isSome_iff_exists, wrap?]
  split
  case isTrue refused =>
      simp only [Bool.or_eq_true, decide_eq_true_eq] at refused
      simp
      omega
  case isFalse sized =>
      simp only [Bool.or_eq_true, decide_eq_true_eq, not_or] at sized
      simp
      omega

end WebToken.KeyWrap
