import Mathlib.Data.Int.Basic
import Mathlib.Data.UInt

/-! Machine words against the integers. An operation of a 64-bit word is exact when its
integer result is one the word can hold; the exact operations are partial, undefined where
the machine's would wrap, overflow or divide by zero. -/

namespace IncastGovernor.Foundation

/-- An integer a signed 64-bit word holds. -/
def Fits (x : ℤ) : Prop := -2 ^ 63 ≤ x ∧ x < 2 ^ 63

instance (x : ℤ) : Decidable (Fits x) := by delta Fits; infer_instance

theorem fits_toInt (a : Int64) : Fits a.toInt := ⟨a.le_toInt, a.toInt_lt⟩

theorem exists_toInt_iff {x : ℤ} : (∃ a : Int64, a.toInt = x) ↔ Fits x := by
  constructor
  · rintro ⟨a, rfl⟩
    exact fits_toInt a
  · exact fun h => ⟨Int64.ofInt x, Int64.toInt_ofInt_of_le h.1 h.2⟩

/-- The wrapped result is the integer's when that one fits. -/
theorem bmod_eq_iff_fits {x : ℤ} : x.bmod (2 ^ 64) = x ↔ Fits x := by
  constructor
  · intro h
    rw [← h]
    exact ⟨Int.le_bmod (by decide), Int.bmod_lt (by decide)⟩
  · exact fun h => Int.bmod_eq_of_le h.1 h.2

/-! ### Exactness of a signed operation -/

theorem add_exact_iff {a b : Int64} :
    (a + b).toInt = a.toInt + b.toInt ↔ Fits (a.toInt + b.toInt) := by
  rw [Int64.toInt_add]
  exact bmod_eq_iff_fits

theorem sub_exact_iff {a b : Int64} :
    (a - b).toInt = a.toInt - b.toInt ↔ Fits (a.toInt - b.toInt) := by
  rw [Int64.toInt_sub]
  exact bmod_eq_iff_fits

theorem mul_exact_iff {a b : Int64} :
    (a * b).toInt = a.toInt * b.toInt ↔ Fits (a.toInt * b.toInt) := by
  rw [Int64.toInt_mul]
  exact bmod_eq_iff_fits

theorem div_exact_iff {a b : Int64} :
    (a / b).toInt = a.toInt.tdiv b.toInt ↔ Fits (a.toInt.tdiv b.toInt) := by
  rw [Int64.toInt_div]
  exact bmod_eq_iff_fits

/-! ### Partial signed operations -/

def addSigned (a b : Int64) : Option Int64 := if Fits (a.toInt + b.toInt) then some (a + b) else none

def subSigned (a b : Int64) : Option Int64 := if Fits (a.toInt - b.toInt) then some (a - b) else none

def mulSigned (a b : Int64) : Option Int64 := if Fits (a.toInt * b.toInt) then some (a * b) else none

def divSigned (a b : Int64) : Option Int64 :=
  if b ≠ 0 ∧ Fits (a.toInt.tdiv b.toInt) then some (a / b) else none

/-- A defined operation has the integer's result. -/
theorem addSigned_eq {a b : Int64} (h : Fits (a.toInt + b.toInt)) :
    ∃ c, addSigned a b = some c ∧ c.toInt = a.toInt + b.toInt :=
  ⟨a + b, if_pos h, add_exact_iff.mpr h⟩

theorem subSigned_eq {a b : Int64} (h : Fits (a.toInt - b.toInt)) :
    ∃ c, subSigned a b = some c ∧ c.toInt = a.toInt - b.toInt :=
  ⟨a - b, if_pos h, sub_exact_iff.mpr h⟩

theorem mulSigned_eq {a b : Int64} (h : Fits (a.toInt * b.toInt)) :
    ∃ c, mulSigned a b = some c ∧ c.toInt = a.toInt * b.toInt :=
  ⟨a * b, if_pos h, mul_exact_iff.mpr h⟩

theorem divSigned_eq {a b : Int64} (hb : b ≠ 0) (h : Fits (a.toInt.tdiv b.toInt)) :
    ∃ c, divSigned a b = some c ∧ c.toInt = a.toInt.tdiv b.toInt :=
  ⟨a / b, if_pos ⟨hb, h⟩, div_exact_iff.mpr h⟩

/-! ### Partial unsigned operations -/

def addUnsigned (a b : UInt64) : Option UInt64 :=
  if a.toNat + b.toNat < 2 ^ 64 then some (a + b) else none

def subUnsigned (a b : UInt64) : Option UInt64 := if b ≤ a then some (a - b) else none

def mulUnsigned (a b : UInt64) : Option UInt64 :=
  if a.toNat * b.toNat < 2 ^ 64 then some (a * b) else none

def divUnsigned (a b : UInt64) : Option UInt64 := if b ≠ 0 then some (a / b) else none

theorem addUnsigned_eq {a b : UInt64} (h : a.toNat + b.toNat < 2 ^ 64) :
    ∃ c, addUnsigned a b = some c ∧ c.toNat = a.toNat + b.toNat :=
  ⟨a + b, if_pos h, by rw [UInt64.toNat_add, Nat.mod_eq_of_lt h]⟩

theorem subUnsigned_eq {a b : UInt64} (h : b ≤ a) :
    ∃ c, subUnsigned a b = some c ∧ c.toNat = a.toNat - b.toNat :=
  ⟨a - b, if_pos h, UInt64.toNat_sub_of_le a b h⟩

theorem mulUnsigned_eq {a b : UInt64} (h : a.toNat * b.toNat < 2 ^ 64) :
    ∃ c, mulUnsigned a b = some c ∧ c.toNat = a.toNat * b.toNat :=
  ⟨a * b, if_pos h, by rw [UInt64.toNat_mul, Nat.mod_eq_of_lt h]⟩

theorem divUnsigned_eq {a b : UInt64} (h : b ≠ 0) :
    ∃ c, divUnsigned a b = some c ∧ c.toNat = a.toNat / b.toNat :=
  ⟨a / b, if_pos h, UInt64.toNat_div a b⟩

/-! ### Quotients as bounds -/

/-- A product is past a limit when its factor is past the truncated quotient, for each sign of
limit and divisor. -/
theorem tdiv_lt_iff_pos {limit d x : ℤ} (hl : 0 ≤ limit) (hd : 0 < d) :
    limit.tdiv d < x ↔ limit < x * d := by
  rw [Int.tdiv_eq_ediv_of_nonneg hl]
  exact Int.ediv_lt_iff_lt_mul hd

theorem lt_tdiv_iff_neg {limit d x : ℤ} (hl : limit ≤ 0) (hd : 0 < d) :
    x < limit.tdiv d ↔ x * d < limit := by
  have hquotient : limit.tdiv d = -((-limit).tdiv d) := by rw [Int.neg_tdiv, neg_neg]
  have hpos := tdiv_lt_iff_pos (x := -x) (neg_nonneg.mpr hl) hd
  rw [neg_mul] at hpos
  rw [hquotient]
  omega

theorem lt_tdiv_iff_divisor_neg {limit d x : ℤ} (hl : 0 ≤ limit) (hd : d < 0) :
    x < limit.tdiv d ↔ limit < x * d := by
  have hquotient : limit.tdiv d = -(limit.tdiv (-d)) := by rw [Int.tdiv_neg, neg_neg]
  have hpos := tdiv_lt_iff_pos (x := -x) hl (neg_pos.mpr hd)
  rw [neg_mul_neg] at hpos
  rw [hquotient]
  omega

/-- Only the quotient of `-2 ^ 63` by `-1` does not fit: by a larger divisor a quotient is at
most half. -/
theorem fits_tdiv {a b : Int64} (h : ¬(a.toInt = -2 ^ 63 ∧ b.toInt = -1)) :
    Fits (a.toInt.tdiv b.toInt) := by
  have ha := fits_toInt a
  by_cases hone : b.toInt.natAbs = 1
  · have hunit : b.toInt = 1 ∨ b.toInt = -1 := by omega
    rcases hunit with hb | hb
    · rw [hb, Int.tdiv_one]
      exact ha
    · have hmin : a.toInt ≠ -2 ^ 63 := fun hmin => h ⟨hmin, hb⟩
      rw [hb, Int.tdiv_neg, Int.tdiv_one]
      unfold Fits at ha ⊢
      omega
  · have hhalf : (a.toInt.tdiv b.toInt).natAbs ≤ a.toInt.natAbs / 2 := by
      rw [Int.natAbs_tdiv]
      rcases Nat.eq_zero_or_pos b.toInt.natAbs with hzero | hpos
      · rw [hzero]
        exact (Nat.div_zero _).trans_le (Nat.zero_le _)
      · exact Nat.div_le_div_left (by omega) (by decide)
    unfold Fits at ha ⊢
    omega

end IncastGovernor.Foundation
