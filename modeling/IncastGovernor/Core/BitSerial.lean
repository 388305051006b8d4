import IncastGovernor.Core.Checksum
import IncastGovernor.Foundation.BitString

/-! The checksum bit by bit. The specification takes the message one bit at a time and divides
in place; up to thirty-two bits at once are the division of the register with all of them added
to its low end. The loop over bytes is the case of eight, and a burst is the case of its
width. -/

namespace IncastGovernor

open Foundation

/-- One message bit of the reflected division by `0x82F63B78`. -/
def crcShift (crc : UInt32) (bit : Bool) : UInt32 :=
  if crc.toNat.testBit 0 ≠ bit then (crc >>> 1) ^^^ 0x82F63B78 else crc >>> 1

/-- The bit-serial checksum. -/
def crcBitSerial (bits : List Bool) : UInt32 := ~~~bits.foldl crcShift 0xFFFFFFFF

/-- The word with a bit at its low end. -/
def bitWord (bit : Bool) : UInt32 := if bit then 1 else 0

theorem low_bit_testBit (x : UInt32) : x &&& 1 ≠ 0 ↔ x.toNat.testBit 0 = true := by
  have hmod : (x &&& 1).toNat = x.toNat % 2 := by
    rw [UInt32.toNat_and]
    exact Nat.and_one_is_mod x.toNat
  rw [ne_eq, ← UInt32.toNat_inj, hmod, Nat.testBit_zero, decide_eq_true_iff]
  show ¬x.toNat % 2 = 0 ↔ _
  omega

/-- A message bit is added to the low end before the division. -/
theorem crcShift_eq (crc : UInt32) (bit : Bool) : crcShift crc bit = crcBit (crc ^^^ bitWord bit) := by
  have hlow : (crc ^^^ bitWord bit).toNat.testBit 0 = (crc.toNat.testBit 0 ^^ bit) := by
    rw [UInt32.toNat_xor, Nat.testBit_xor]
    cases bit <;> rfl
  have hshift : (crc ^^^ bitWord bit) >>> 1 = crc >>> 1 := by
    have hout : bitWord bit >>> 1 = 0 := by cases bit <;> rfl
    rw [UInt32.shiftRight_xor, hout, UInt32.xor_zero]
  unfold crcShift crcBit
  rw [hshift]
  simp only [low_bit_testBit, hlow]
  cases crc.toNat.testBit 0 <;> cases bit <;> rfl

/-- A number below `2 ^ 31` is only moved down by the division. -/
theorem crcBit_double {n : ℕ} (h : 2 * n < 2 ^ 32) :
    crcBit (UInt32.ofNat (2 * n)) = UInt32.ofNat n := by
  have hvalue : (UInt32.ofNat (2 * n)).toNat = 2 * n := UInt32.toNat_ofNat_of_lt' h
  have hhalf : (UInt32.ofNat n).toNat = n :=
    UInt32.toNat_ofNat_of_lt' (Nat.lt_of_le_of_lt (by omega : n ≤ 2 * n) h)
  have heven : UInt32.ofNat (2 * n) &&& 1 = 0 := by
    rw [← UInt32.toNat_inj, UInt32.toNat_and, hvalue]
    exact (Nat.and_one_is_mod _).trans (Nat.mul_mod_right 2 n)
  rw [crcBit_even heven, ← UInt32.toNat_inj, shiftRight_toNat, hvalue, hhalf,
    Nat.mul_div_cancel_left n (by decide)]

theorem ofNat_bit (bit : Bool) (n : ℕ) :
    UInt32.ofNat (bit.toNat + 2 * n) = bitWord bit ^^^ UInt32.ofNat (2 * n) := by
  cases bit with
  | false => rw [bitWord, if_neg (by decide), UInt32.zero_xor, Bool.toNat_false, Nat.zero_add]
  | true =>
    have hxor : 2 * n ^^^ 1 = 2 * n + 1 := Nat.xor_one_of_even (even_two_mul n)
    rw [bitWord, if_pos rfl, Bool.toNat_true, Nat.add_comm, ← hxor, UInt32.xor_comm]
    exact UInt32.ofNat_xor ..

/-- Up to thirty-two message bits at once. -/
theorem crcShift_foldl {bits : List Bool} (h : bits.length ≤ 32) (crc : UInt32) :
    bits.foldl crcShift crc = crcBit^[bits.length] (crc ^^^ UInt32.ofNat (bitsValue bits)) := by
  induction bits generalizing crc with
  | nil => exact (UInt32.xor_zero (a := crc)).symm
  | cons bit rest ih =>
    have hrest : rest.length < 32 := h
    have hvalue := bitsValue_lt rest
    have hpow : 2 ^ rest.length ≤ 2 ^ 31 := Nat.pow_le_pow_right (by decide) (Nat.le_of_lt_succ hrest)
    rw [List.foldl_cons, ih (Nat.le_of_lt hrest), crcShift_eq, List.length_cons, bitsValue, ofNat_bit,
      Function.iterate_succ_apply, ← UInt32.xor_assoc, crcBit_xor (crc ^^^ bitWord bit),
      crcBit_double (by omega)]

/-- A step by the table is eight steps of the division. -/
theorem crcUpdate_bitSerial (crc : UInt32) (byte : UInt8) :
    crcUpdate crc byte = (lowBits 8 byte.toNat).foldl crcShift crc := by
  have hword : UInt32.ofNat (bitsValue (lowBits 8 byte.toNat)) = byte.toUInt32 := by
    rw [bitsValue_lowBits, Nat.mod_eq_of_lt byte.toNat_lt, ← UInt8.toNat_toUInt32, UInt32.ofNat_toNat]
  rw [crcUpdate_eq, crcShift_foldl (by rw [lowBits_length]; decide), lowBits_length, hword]

theorem crcUpdate_foldl (bytes : List UInt8) (crc : UInt32) :
    bytes.foldl crcUpdate crc = (bitString bytes).foldl crcShift crc := by
  induction bytes generalizing crc with
  | nil => rfl
  | cons byte rest ih =>
    rw [List.foldl_cons, ih, crcUpdate_bitSerial, bitString_cons, List.foldl_append]

/-- The table-driven checksum is the bit-serial one, and its register is carried from one part of
a string to the next. -/
theorem crc32c_bitSerial :
    (∀ bytes : Text, crc32c bytes = crcBitSerial (bitString bytes)) ∧
      ∀ (front back : Text) (crc : UInt32),
        (front ++ back).foldl crcUpdate crc = back.foldl crcUpdate (front.foldl crcUpdate crc) := by
  constructor
  · intro bytes
    unfold crc32c crcBitSerial
    rw [crcUpdate_foldl]
    exact UInt32.xor_neg_one
  · intro front back crc
    exact List.foldl_append

example : crcBitSerial (bitString (ascii "123456789")) = 0xE3069283 := by decide +kernel

/-! ### Bursts -/

theorem crcShift_inj {crc crc' : UInt32} {bit : Bool} (h : crcShift crc bit = crcShift crc' bit) :
    crc = crc' := by
  rw [crcShift_eq, crcShift_eq] at h
  exact (UInt32.xor_left_inj _).mp (crcBit_inj h)

theorem crcShift_foldl_inj {bits : List Bool} {crc crc' : UInt32}
    (h : bits.foldl crcShift crc = bits.foldl crcShift crc') : crc = crc' := by
  induction bits generalizing crc crc' with
  | nil => exact h
  | cons bit rest ih => exact crcShift_inj (ih h)

/-- From one register, as many other bits, no more than thirty-two, lead to another register. -/
theorem crcShift_foldl_bits_inj {bits other : List Bool} {crc : UInt32}
    (hlen : other.length = bits.length) (hmax : bits.length ≤ 32)
    (h : other.foldl crcShift crc = bits.foldl crcShift crc) : other = bits := by
  rw [crcShift_foldl (hlen.trans_le hmax), crcShift_foldl hmax, hlen] at h
  have hword := (UInt32.xor_right_inj _).mp (crcBits_inj h)
  have hvalue : ∀ bits : List Bool, bits.length ≤ 32 →
      (UInt32.ofNat (bitsValue bits)).toNat = bitsValue bits := by
    intro bits hbits
    have hlt := bitsValue_lt bits
    have hpow : 2 ^ bits.length ≤ 2 ^ 32 := Nat.pow_le_pow_right (by decide) hbits
    exact UInt32.toNat_ofNat_of_lt' (Nat.lt_of_lt_of_le hlt hpow)
  apply bitsValue_inj hlen
  rw [← hvalue other (hlen.trans_le hmax), hword, hvalue bits hmax]

/-- The checksum notices every burst no wider than its register. -/
theorem crc32c_burst_ne {bytes damaged : Text} (h : Burst 32 bytes damaged) :
    crc32c damaged ≠ crc32c bytes := by
  obtain ⟨front, middle, middle', back, hbytes, hdamaged, hlen, hmax, hne⟩ := h.split
  intro heq
  have hregister := (UInt32.xor_left_inj _).mp heq
  rw [crcUpdate_foldl, crcUpdate_foldl, hbytes, hdamaged, List.foldl_append, List.foldl_append,
    List.foldl_append, List.foldl_append] at hregister
  exact hne (crcShift_foldl_bits_inj hlen hmax (crcShift_foldl_inj hregister))

end IncastGovernor
