import IncastGovernor.Core.Primitives
import IncastGovernor.Foundation.BitFlip
import Mathlib.Data.List.GetD

/-! The checksum as a running one. A step by the table is eight bits of the division; one
bit of the division is linear and maps nothing but zero to zero, so a step gives away the
state it was taken from, and the byte. -/

namespace IncastGovernor

open Foundation

/-! ### One bit of the division -/

theorem xor_and (a b mask : UInt32) : (a ^^^ b) &&& mask = (a &&& mask) ^^^ (b &&& mask) := by
  rw [← UInt32.toNat_inj, UInt32.toNat_and, UInt32.toNat_xor, UInt32.toNat_xor, UInt32.toNat_and,
    UInt32.toNat_and]
  exact Nat.and_xor_distrib_right ..

theorem low_bit (x : UInt32) : x &&& 1 = 0 ∨ x &&& 1 = 1 := by
  rw [← UInt32.toNat_inj, ← UInt32.toNat_inj, UInt32.toNat_and]
  have hmod : x.toNat &&& (1 : UInt32).toNat = x.toNat % 2 := Nat.and_one_is_mod x.toNat
  rw [hmod]
  exact Nat.mod_two_eq_zero_or_one _

theorem crcBit_even {x : UInt32} (h : x &&& 1 = 0) : crcBit x = x >>> 1 := by
  rw [crcBit, if_neg (not_not.mpr h)]

theorem crcBit_odd {x : UInt32} (h : x &&& 1 = 1) : crcBit x = (x >>> 1) ^^^ 0x82F63B78 := by
  rw [crcBit, if_pos (by rw [h]; decide)]

theorem crcBit_xor (a b : UInt32) : crcBit (a ^^^ b) = crcBit a ^^^ crcBit b := by
  have hlow := xor_and a b 1
  rcases low_bit a with ha | ha <;> rcases low_bit b with hb | hb <;> rw [ha, hb] at hlow
  · rw [crcBit_even ha, crcBit_even hb, crcBit_even hlow, UInt32.shiftRight_xor]
  · rw [crcBit_even ha, crcBit_odd hb, crcBit_odd hlow, UInt32.shiftRight_xor, UInt32.xor_assoc]
  · rw [crcBit_odd ha, crcBit_even hb, crcBit_odd hlow, UInt32.shiftRight_xor, UInt32.xor_assoc,
      UInt32.xor_assoc, UInt32.xor_comm (b >>> 1)]
  · -- the two divisors cancel
    rw [crcBit_odd ha, crcBit_odd hb, crcBit_even hlow, UInt32.shiftRight_xor, UInt32.xor_assoc,
      ← UInt32.xor_assoc 0x82F63B78, UInt32.xor_comm 0x82F63B78 (b >>> 1), UInt32.xor_assoc,
      UInt32.xor_self, UInt32.xor_zero]

theorem shiftRight_toNat (x : UInt32) : (x >>> 1).toNat = x.toNat / 2 := by
  rw [UInt32.toNat_shiftRight]
  exact Nat.shiftRight_eq_div_pow x.toNat 1

theorem crcBit_eq_zero {x : UInt32} (h : crcBit x = 0) : x = 0 := by
  rcases low_bit x with hx | hx
  · rw [crcBit_even hx, ← UInt32.toNat_inj, shiftRight_toNat] at h
    rw [← UInt32.toNat_inj, UInt32.toNat_and] at hx
    have hmod : x.toNat % 2 = 0 := (Nat.and_one_is_mod x.toNat).symm.trans hx
    rw [← UInt32.toNat_inj]
    show x.toNat = 0
    have hdiv : x.toNat / 2 = 0 := h
    omega
  · -- the divisor has its highest bit set, what is shifted has not
    rw [crcBit_odd hx, UInt32.xor_eq_zero_iff, ← UInt32.toNat_inj, shiftRight_toNat] at h
    have hlt := x.toNat_lt
    have hdivisor : (0x82F63B78 : UInt32).toNat = 2197175160 := rfl
    rw [hdivisor] at h
    omega

theorem crcBit_inj {a b : UInt32} (h : crcBit a = crcBit b) : a = b := by
  rw [← UInt32.xor_eq_zero_iff]
  apply crcBit_eq_zero
  rw [crcBit_xor, h, UInt32.xor_self]

/-! ### A step by the table -/

theorem crcBits_xor (count : ℕ) (a b : UInt32) :
    crcBit^[count] (a ^^^ b) = crcBit^[count] a ^^^ crcBit^[count] b := by
  induction count generalizing a b with
  | zero => rfl
  | succ count ih => rw [Function.iterate_succ_apply, crcBit_xor, ih]; rfl

theorem crcBits_inj {count : ℕ} {a b : UInt32} (h : crcBit^[count] a = crcBit^[count] b) :
    a = b := (Function.Injective.iterate (fun _ _ h => crcBit_inj h) count) h

/-- Zero bits at the low end are only shifted out. -/
theorem crcBits_shift (count : ℕ) {x : UInt32} (h : x.toNat % 2 ^ count = 0) :
    (crcBit^[count] x).toNat = x.toNat / 2 ^ count := by
  induction count generalizing x with
  | zero => exact (Nat.div_one _).symm
  | succ count ih =>
    rw [pow_succ'] at h ⊢
    have heven : x.toNat % 2 = 0 := by
      rw [← Nat.mod_mul_right_mod x.toNat 2 (2 ^ count), h]
    have hbit : x &&& 1 = 0 := by
      rw [← UInt32.toNat_inj, UInt32.toNat_and]
      exact (Nat.and_one_is_mod x.toNat).trans heven
    have hhalf : x.toNat / 2 % 2 ^ count = 0 := by
      rw [← Nat.mod_mul_right_div_self, h]
    rw [Function.iterate_succ_apply, crcBit_even hbit,
      ih (by rw [shiftRight_toNat]; exact hhalf), shiftRight_toNat, Nat.div_div_eq_div_mul]

theorem and_mask_toNat (x : UInt32) : (x &&& 0xFF).toNat = x.toNat % 2 ^ 8 := by
  rw [UInt32.toNat_and]
  exact Nat.and_two_pow_sub_one_eq_mod x.toNat 8

theorem shiftRight_byte_toNat (x : UInt32) : (x >>> 8).toNat = x.toNat / 2 ^ 8 := by
  rw [UInt32.toNat_shiftRight]
  exact Nat.shiftRight_eq_div_pow x.toNat 8

/-- Eight bits of the division: the table has those of the low byte, the others move up. -/
theorem crcBits_eight (x : UInt32) :
    crcBit^[8] x = crcBit^[8] (x &&& 0xFF) ^^^ (x >>> 8) := by
  have hsplit : x = (x &&& 0xFF) ^^^ (x ^^^ (x &&& 0xFF)) := by
    rw [UInt32.xor_comm x, ← UInt32.xor_assoc, UInt32.xor_self, UInt32.zero_xor]
  have hmod : (x ^^^ (x &&& 0xFF)).toNat % 2 ^ 8 = 0 := by
    rw [UInt32.toNat_xor, Nat.xor_mod_two_pow, and_mask_toNat, Nat.mod_mod, Nat.xor_self]
  have hdiv : (x ^^^ (x &&& 0xFF)).toNat / 2 ^ 8 = x.toNat / 2 ^ 8 := by
    have hlow : x.toNat % 2 ^ 8 / 2 ^ 8 = 0 := Nat.mod_div_self ..
    rw [UInt32.toNat_xor, Nat.xor_div_two_pow, and_mask_toNat, hlow, Nat.xor_zero]
  have hhigh : crcBit^[8] (x ^^^ (x &&& 0xFF)) = x >>> 8 := by
    rw [← UInt32.toNat_inj, crcBits_shift 8 hmod, hdiv, shiftRight_byte_toNat]
  rw [← hhigh, ← crcBits_xor, ← hsplit]

theorem crcTable_getD {index : ℕ} (h : index < 256) :
    crcTable.getD index 0 = crcBit^[8] (UInt32.ofNat index) := by
  have hlt : index < crcTable.length := by
    rw [crcTable, List.length_map, List.length_range]
    exact h
  rw [List.getD_eq_getElem _ _ hlt]
  simp only [crcTable, List.getElem_map, List.getElem_range]

theorem crcUpdate_eq (crc : UInt32) (byte : UInt8) :
    crcUpdate crc byte = crcBit^[8] (crc ^^^ byte.toUInt32) := by
  have hindex : ((crc ^^^ byte.toUInt32) &&& 0xFF).toNat < 256 := by
    rw [and_mask_toNat]
    exact Nat.mod_lt _ (by decide)
  have hshift : (crc ^^^ byte.toUInt32) >>> 8 = crc >>> 8 := by
    have hbyte : byte.toUInt32 >>> 8 = 0 := by
      rw [← UInt32.toNat_inj, shiftRight_byte_toNat, UInt8.toNat_toUInt32]
      exact Nat.div_eq_of_lt byte.toNat_lt
    rw [UInt32.shiftRight_xor, hbyte, UInt32.xor_zero]
  rw [crcUpdate, crcTable_getD hindex, UInt32.ofNat_toNat, crcBits_eight (crc ^^^ _), hshift]

theorem crcUpdate_separating : Separating crcUpdate := by
  constructor
  · intro crc crc' byte h
    rw [crcUpdate_eq, crcUpdate_eq] at h
    exact (UInt32.xor_left_inj _).mp (crcBits_inj h)
  · intro crc byte byte' h
    rw [crcUpdate_eq, crcUpdate_eq] at h
    exact UInt8.toUInt32_inj.mp ((UInt32.xor_right_inj _).mp (crcBits_inj h))

/-- The checksum notices every flip of a bit. -/
theorem crc32c_flipBit_ne {bytes : List UInt8} {position : ℕ} (h : position < bytes.length)
    (bit : Fin 8) : crc32c (flipBit bytes position bit) ≠ crc32c bytes := by
  intro heq
  have hfold := (UInt32.xor_left_inj _).mp heq
  exact crcUpdate_separating.foldl_modify_ne (fun byte => flipByte_ne byte bit) h hfold

end IncastGovernor
