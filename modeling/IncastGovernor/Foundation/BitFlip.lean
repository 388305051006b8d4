import Mathlib.Data.List.Basic
import Mathlib.Data.UInt

/-! Strings of bytes with one bit flipped, and running checksums. A checksum whose step
tells states apart under the same byte, and bytes in the same state, notices every change
of a single byte: the states differ behind it and no later byte makes them meet. -/

namespace IncastGovernor.Foundation

/-! ### A flipped bit -/

def flipByte (byte : UInt8) (bit : Fin 8) : UInt8 := byte ^^^ 1 <<< UInt8.ofNat bit

/-- One bit of one byte is the other way round. -/
def flipBit (bytes : List UInt8) (position : ℕ) (bit : Fin 8) : List UInt8 :=
  bytes.modify position fun byte => flipByte byte bit

section FlipBit

variable {front back : List UInt8} {byte : UInt8} {position : ℕ} {bit : Fin 8}

theorem flipByte_ne (byte : UInt8) (bit : Fin 8) : flipByte byte bit ≠ byte := by
  have hmask : ∀ bit : Fin 8, 1 <<< UInt8.ofNat bit ≠ 0 := by decide
  intro h
  apply hmask bit
  rw [← UInt8.xor_right_inj byte, UInt8.xor_zero]
  exact h

@[simp] theorem flipBit_length (bytes : List UInt8) (position : ℕ) (bit : Fin 8) :
    (flipBit bytes position bit).length = bytes.length := List.length_modify ..

@[simp] theorem flipBit_nil (position : ℕ) (bit : Fin 8) : flipBit [] position bit = [] :=
  List.modify_nil ..

@[simp] theorem flipBit_cons_zero (byte : UInt8) (rest : List UInt8) (bit : Fin 8) :
    flipBit (byte :: rest) 0 bit = flipByte byte bit :: rest := rfl

@[simp] theorem flipBit_cons_succ (byte : UInt8) (rest : List UInt8) (position : ℕ)
    (bit : Fin 8) :
    flipBit (byte :: rest) (position + 1) bit = byte :: flipBit rest position bit := rfl

theorem flipBit_append_left (h : position < front.length) :
    flipBit (front ++ back) position bit = flipBit front position bit ++ back := by
  induction front generalizing position with
  | nil => cases h
  | cons first rest ih =>
    cases position with
    | zero => rfl
    | succ position =>
      rw [List.cons_append, flipBit_cons_succ, flipBit_cons_succ, List.cons_append,
        ih (Nat.lt_of_succ_lt_succ h)]

theorem flipBit_append_right (h : front.length ≤ position) :
    flipBit (front ++ back) position bit =
      front ++ flipBit back (position - front.length) bit := by
  induction front generalizing position with
  | nil => rfl
  | cons first rest ih =>
    cases position with
    | zero => cases h
    | succ position =>
      rw [List.cons_append, flipBit_cons_succ, ih (Nat.le_of_succ_le_succ h), List.cons_append,
        List.length_cons, Nat.add_sub_add_right]

theorem flipBit_ne {bytes : List UInt8} (h : position < bytes.length) :
    flipBit bytes position bit ≠ bytes := by
  induction bytes generalizing position with
  | nil => cases h
  | cons first rest ih =>
    cases position with
    | zero => exact fun heq => flipByte_ne first bit (List.cons.inj heq).1
    | succ position => exact fun heq => ih (Nat.lt_of_succ_lt_succ h) (List.cons.inj heq).2

/-- The flip lies in the front of a string or behind it. -/
theorem flipBit_append_eq {front' back' : List UInt8} (hlen : front.length = front'.length) :
    flipBit (front ++ back) position bit = front' ++ back' →
      (position < front.length ∧ flipBit front position bit = front' ∧ back = back') ∨
        (front.length ≤ position ∧ front = front' ∧
          flipBit back (position - front.length) bit = back') := by
  intro h
  by_cases hlt : position < front.length
  · rw [flipBit_append_left hlt] at h
    obtain ⟨hfront, hback⟩ := List.append_inj h (by rw [flipBit_length, hlen])
    exact Or.inl ⟨hlt, hfront, hback⟩
  · rw [flipBit_append_right (Nat.not_lt.mp hlt)] at h
    obtain ⟨hfront, hback⟩ := List.append_inj h hlen
    exact Or.inr ⟨Nat.not_lt.mp hlt, hfront, hback⟩

end FlipBit

/-! ### Running checksums -/

/-- A step that loses neither the state nor the byte, given the other. -/
structure Separating {σ β : Type*} (step : σ → β → σ) : Prop where
  state : ∀ {s s' b}, step s b = step s' b → s = s'
  input : ∀ {s b b'}, step s b = step s b' → b = b'

namespace Separating

variable {σ β : Type*} {step : σ → β → σ}

theorem foldl_state (h : Separating step) {s s' : σ} {bytes : List β}
    (heq : bytes.foldl step s = bytes.foldl step s') : s = s' := by
  induction bytes generalizing s s' with
  | nil => exact heq
  | cons b rest ih => exact h.state (ih heq)

/-- A change of one byte is seen behind everything that follows. -/
theorem foldl_modify_ne (h : Separating step) {change : β → β} (hchange : ∀ b, change b ≠ b)
    {s : σ} {bytes : List β} {position : ℕ} (hlt : position < bytes.length) :
    (bytes.modify position change).foldl step s ≠ bytes.foldl step s := by
  induction bytes generalizing s position with
  | nil => cases hlt
  | cons b rest ih =>
    cases position with
    | zero => exact fun heq => hchange b (h.input (h.foldl_state heq))
    | succ position => exact ih (Nat.lt_of_succ_lt_succ hlt)

end Separating

end IncastGovernor.Foundation
