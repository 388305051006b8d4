import Mathlib.Data.List.Basic
import Mathlib.Data.Nat.Bitwise
import Mathlib.Data.UInt

/-! Strings of bytes as strings of bits, the low bit of a byte first, and bursts: changes of a
string that lie in a window of consecutive bits. -/

namespace IncastGovernor.Foundation

/-! ### The bits of a number -/

/-- The lowest bits of a number, the lowest one first. -/
def lowBits : ℕ → ℕ → List Bool
  | 0, _ => []
  | count + 1, n => n.testBit 0 :: lowBits count (n / 2)

/-- The number with the given bits. -/
def bitsValue : List Bool → ℕ
  | [] => 0
  | bit :: rest => bit.toNat + 2 * bitsValue rest

@[simp] theorem lowBits_length (count n : ℕ) : (lowBits count n).length = count := by
  induction count generalizing n with
  | zero => rfl
  | succ count ih => rw [lowBits, List.length_cons, ih]

theorem lowBits_getElem? {count n i : ℕ} (h : i < count) :
    (lowBits count n)[i]? = some (n.testBit i) := by
  induction count generalizing n i with
  | zero => exact absurd h (Nat.not_lt_zero i)
  | succ count ih =>
    cases i with
    | zero => rfl
    | succ i =>
      rw [lowBits, List.getElem?_cons_succ, ih (Nat.lt_of_succ_lt_succ h), Nat.testBit_succ]

theorem bitsValue_lt (bits : List Bool) : bitsValue bits < 2 ^ bits.length := by
  induction bits with
  | nil => exact Nat.one_pos
  | cons bit rest ih =>
    have hbit : bit.toNat ≤ 1 := Bool.toNat_le bit
    rw [bitsValue, List.length_cons, pow_succ]
    omega

theorem bitsValue_lowBits (count n : ℕ) : bitsValue (lowBits count n) = n % 2 ^ count := by
  induction count generalizing n with
  | zero => rw [lowBits, bitsValue, pow_zero, Nat.mod_one]
  | succ count ih =>
    have hbit : (n.testBit 0).toNat = n % 2 := by
      rw [Nat.testBit_zero]
      rcases Nat.mod_two_eq_zero_or_one n with h | h <;> simp [h]
    rw [lowBits, bitsValue, ih, hbit, pow_succ', Nat.mod_mul]

theorem bitsValue_inj {xs ys : List Bool} (hlen : xs.length = ys.length)
    (h : bitsValue xs = bitsValue ys) : xs = ys := by
  induction xs generalizing ys with
  | nil => exact (List.length_eq_zero_iff.mp hlen.symm).symm
  | cons x rest ih =>
    cases ys with
    | nil => cases hlen
    | cons y rest' =>
      have hx : x.toNat ≤ 1 := Bool.toNat_le x
      have hy : y.toNat ≤ 1 := Bool.toNat_le y
      unfold bitsValue at h
      have hbit : x.toNat = y.toNat := by omega
      have hsame : x = y := by
        cases x <;> cases y <;> first | rfl | cases hbit
      rw [hsame, ih (Nat.succ.inj hlen) (by omega)]

/-! ### The bits of a string -/

def bitString (bytes : List UInt8) : List Bool := bytes.flatMap fun byte => lowBits 8 byte.toNat

/-- Bit `i` of a string is bit `i % 8` of byte `i / 8`. -/
def bitAt (bytes : List UInt8) (i : ℕ) : Bool := (bytes.getD (i / 8) 0).toNat.testBit (i % 8)

@[simp] theorem bitString_cons (byte : UInt8) (rest : List UInt8) :
    bitString (byte :: rest) = lowBits 8 byte.toNat ++ bitString rest := List.flatMap_cons

@[simp] theorem bitString_length (bytes : List UInt8) :
    (bitString bytes).length = 8 * bytes.length := by
  induction bytes with
  | nil => rfl
  | cons byte rest ih =>
    rw [bitString_cons, List.length_append, lowBits_length, ih, List.length_cons]
    omega

theorem bitString_getElem? {bytes : List UInt8} {i : ℕ} (h : i < 8 * bytes.length) :
    (bitString bytes)[i]? = some (bitAt bytes i) := by
  induction bytes generalizing i with
  | nil => exact absurd h (Nat.not_lt_zero i)
  | cons byte rest ih =>
    rw [bitString_cons]
    unfold bitAt
    by_cases hfirst : i < 8
    · have hzero : i / 8 = 0 := Nat.div_eq_of_lt hfirst
      rw [List.getElem?_append_left (by rw [lowBits_length]; exact hfirst), lowBits_getElem? hfirst,
        hzero, Nat.mod_eq_of_lt hfirst, List.getD_cons_zero]
    · have hrest : i - 8 < 8 * rest.length := by
        rw [List.length_cons] at h
        omega
      have hsucc : i / 8 = (i - 8) / 8 + 1 := by omega
      have hmod : i % 8 = (i - 8) % 8 := by omega
      rw [List.getElem?_append_right (by rw [lowBits_length]; omega), lowBits_length, ih hrest,
        hsucc, hmod, List.getD_cons_succ, bitAt]

theorem bitString_inj {bytes other : List UInt8} (hlen : bytes.length = other.length)
    (h : bitString bytes = bitString other) : bytes = other := by
  induction bytes generalizing other with
  | nil => exact (List.length_eq_zero_iff.mp hlen.symm).symm
  | cons byte rest ih =>
    cases other with
    | nil => cases hlen
    | cons byte' rest' =>
      rw [bitString_cons, bitString_cons] at h
      obtain ⟨hfirst, hrest⟩ := List.append_inj h (by rw [lowBits_length, lowBits_length])
      have hvalue := congrArg bitsValue hfirst
      rw [bitsValue_lowBits, bitsValue_lowBits, Nat.mod_eq_of_lt byte.toNat_lt,
        Nat.mod_eq_of_lt byte'.toNat_lt] at hvalue
      rw [UInt8.toNat_inj.mp hvalue, ih (Nat.succ.inj hlen) hrest]

/-! ### Bursts -/

/-- Another string of the same length, with every change inside a window. -/
structure Burst (width : ℕ) (bytes damaged : List UInt8) : Prop where
  length : damaged.length = bytes.length
  changed : damaged ≠ bytes
  window : ∃ start, ∀ i, bitAt damaged i ≠ bitAt bytes i → start ≤ i ∧ i < start + width

theorem Burst.bits_length {width : ℕ} {bytes damaged : List UInt8} (h : Burst width bytes damaged) :
    (bitString damaged).length = (bitString bytes).length := by
  rw [bitString_length, bitString_length, h.length]

theorem Burst.agrees_outside {width : ℕ} {bytes damaged : List UInt8}
    (h : Burst width bytes damaged) :
    ∃ start, ∀ i, ¬(start ≤ i ∧ i < start + width) →
      (bitString damaged)[i]? = (bitString bytes)[i]? := by
  obtain ⟨start, hwindow⟩ := h.window
  refine ⟨start, fun i hout => ?_⟩
  by_cases hi : i < 8 * bytes.length
  · rw [bitString_getElem? hi, bitString_getElem? (by rw [h.length]; exact hi)]
    by_contra hne
    exact hout (hwindow i fun heq => hne (congrArg some heq))
  · have hpast : (bitString bytes).length ≤ i := by
      rw [bitString_length]
      omega
    rw [List.getElem?_eq_none hpast, List.getElem?_eq_none (h.bits_length.trans_le hpast)]

/-- The bits of a burst: the same before and behind it, other ones in between. -/
theorem Burst.split {width : ℕ} {bytes damaged : List UInt8} (h : Burst width bytes damaged) :
    ∃ front middle middle' back, bitString bytes = front ++ (middle ++ back) ∧
      bitString damaged = front ++ (middle' ++ back) ∧ middle'.length = middle.length ∧
        middle.length ≤ width ∧ middle' ≠ middle := by
  obtain ⟨start, hsame⟩ := h.agrees_outside
  have hlen := h.bits_length
  have hfront : (bitString damaged).take start = (bitString bytes).take start := by
    apply List.ext_getElem?
    intro i
    by_cases hi : i < start
    · rw [List.getElem?_take_of_lt hi, List.getElem?_take_of_lt hi, hsame i (by omega)]
    · rw [List.getElem?_take_eq_none (Nat.not_lt.mp hi), List.getElem?_take_eq_none (Nat.not_lt.mp hi)]
  have hback : ((bitString damaged).drop start).drop width =
      ((bitString bytes).drop start).drop width := by
    apply List.ext_getElem?
    intro i
    rw [List.drop_drop, List.drop_drop, List.getElem?_drop, List.getElem?_drop,
      hsame _ (by omega)]
  refine ⟨(bitString bytes).take start, ((bitString bytes).drop start).take width,
    ((bitString damaged).drop start).take width, ((bitString bytes).drop start).drop width,
    ?_, ?_, ?_, ?_, ?_⟩
  · rw [List.take_append_drop, List.take_append_drop]
  · rw [← hfront, ← hback, List.take_append_drop, List.take_append_drop]
  · rw [List.length_take, List.length_take, List.length_drop, List.length_drop, hlen]
  · exact List.length_take_le _ _
  · intro hmiddle
    apply h.changed
    apply bitString_inj h.length
    rw [← List.take_append_drop start (bitString damaged), hfront,
      ← List.take_append_drop width ((bitString damaged).drop start), hmiddle, hback,
      List.take_append_drop, List.take_append_drop]

end IncastGovernor.Foundation
