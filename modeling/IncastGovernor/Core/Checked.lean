import IncastGovernor.Core.Primitives
import IncastGovernor.Foundation.ExactWord

/-! Checked arithmetic. Each function tests its operands before it computes, and its tests
compute themselves: a subtraction from the end of the range, a quotient of it. They are
written with the partial operations, so that nothing outside is an undefined test, and
nothing inside a result that cannot be represented. -/

namespace IncastGovernor

open Foundation

/-- `detail::add_would_overflow` of signed words. -/
def addWouldOverflow (a b : Int64) : Option Bool :=
  if b > 0 then (subSigned Int64.maxValue b).map fun room => decide (a > room)
  else if b < 0 then (subSigned Int64.minValue b).map fun room => decide (a < room)
  else some false

def checkedAddI64 (a b : Int64) : Option (Option Int64) :=
  (addWouldOverflow a b).bind fun overflow =>
    if overflow then some none else (addSigned a b).map some

def checkedAddU64 (a b : UInt64) : Option (Option UInt64) :=
  (subUnsigned u64Max b).bind fun room =>
    if a > room then some none else (addUnsigned a b).map some

/-- Two 32-bit words, added as 64-bit ones. -/
def checkedAddU32 (a b : UInt32) : Option (Option UInt64) :=
  (addUnsigned a.toUInt64 b.toUInt64).map fun sum => if sum > 0xFFFFFFFF then none else some sum

def checkedMulU64 (a b : UInt64) : Option (Option UInt64) :=
  if a = 0 ∨ b = 0 then some (some 0)
  else (divUnsigned u64Max b).bind fun most =>
    if a > most then some none else (mulUnsigned a b).map some

/-- The product of nonzero words is past the end of the range on its side. -/
def mulWouldOverflow (a b : Int64) : Option Bool :=
  if a > 0 then
    if b > 0 then (divSigned Int64.maxValue b).map fun most => decide (a > most)
    else (divSigned Int64.minValue a).map fun least => decide (b < least)
  else
    if b > 0 then (divSigned Int64.minValue b).map fun least => decide (a < least)
    else if a ≠ 0 then (divSigned Int64.maxValue a).map fun most => decide (b < most)
    else some false

def checkedMulI64 (a b : Int64) : Option (Option Int64) :=
  if a = 0 ∨ b = 0 then some (some 0)
  else (mulWouldOverflow a b).bind fun overflow =>
    if overflow then some none else (mulSigned a b).map some

def checkedDivI64 (a b : Int64) : Option (Option Int64) :=
  if b = 0 then some none
  else if a = Int64.minValue ∧ b = -1 then some none
  else (divSigned a b).map some

/-! ### The tests -/

theorem Int64.toInt_eq_zero_iff {a : Int64} : a.toInt = 0 ↔ a = 0 := by
  rw [← Int64.toInt_inj, Int64.toInt_zero]

theorem Int64.gt_zero_iff {a : Int64} : a > 0 ↔ 0 < a.toInt := by
  rw [gt_iff_lt, Int64.lt_iff_toInt_lt, Int64.toInt_zero]

theorem addWouldOverflow_eq (a b : Int64) :
    addWouldOverflow a b = some (decide ¬Fits (a.toInt + b.toInt)) := by
  have ha := fits_toInt a
  have hb := fits_toInt b
  have hmax := Int64.toInt_maxValue
  have hmin := Int64.toInt_minValue
  unfold addWouldOverflow
  split_ifs with hpos hneg
  · rw [Int64.gt_zero_iff] at hpos
    obtain ⟨room, hroom, hvalue⟩ := subSigned_eq (a := Int64.maxValue) (b := b)
      (by unfold Fits at hb ⊢; omega)
    rw [hroom, Option.map_some, Option.some_inj, decide_eq_decide, gt_iff_lt, Int64.lt_iff_toInt_lt,
      hvalue]
    unfold Fits at ha ⊢
    omega
  · rw [Int64.lt_iff_toInt_lt, Int64.toInt_zero] at hneg
    obtain ⟨room, hroom, hvalue⟩ := subSigned_eq (a := Int64.minValue) (b := b)
      (by unfold Fits at hb ⊢; omega)
    rw [hroom, Option.map_some, Option.some_inj, decide_eq_decide, Int64.lt_iff_toInt_lt, hvalue]
    unfold Fits at ha ⊢
    omega
  · rw [Int64.gt_zero_iff] at hpos
    rw [Int64.lt_iff_toInt_lt, Int64.toInt_zero] at hneg
    have hzero : b.toInt = 0 := by omega
    rw [hzero, add_zero, decide_eq_false (not_not.mpr ha)]

/-- A word against the quotient of two others. -/
theorem below_quotient {a b x : Int64} (hb : b ≠ 0) (h : Fits (a.toInt.tdiv b.toInt)) :
    ((divSigned a b).map fun q => decide (x < q)) = some (decide (x.toInt < a.toInt.tdiv b.toInt)) := by
  obtain ⟨q, hq, hvalue⟩ := divSigned_eq hb h
  rw [hq, Option.map_some, Option.some_inj, decide_eq_decide, Int64.lt_iff_toInt_lt, hvalue]

theorem above_quotient {a b x : Int64} (hb : b ≠ 0) (h : Fits (a.toInt.tdiv b.toInt)) :
    ((divSigned a b).map fun q => decide (x > q)) = some (decide (a.toInt.tdiv b.toInt < x.toInt)) := by
  obtain ⟨q, hq, hvalue⟩ := divSigned_eq hb h
  rw [hq, Option.map_some, Option.some_inj, decide_eq_decide, gt_iff_lt, Int64.lt_iff_toInt_lt, hvalue]

/-- Each sign quadrant compares with the quotient that bounds it; no quotient is the undefined
one, as the least word is divided by positive words only. -/
theorem mulWouldOverflow_eq {a b : Int64} (ha : a ≠ 0) (hb : b ≠ 0) :
    mulWouldOverflow a b = some (decide ¬Fits (a.toInt * b.toInt)) := by
  have hmax := Int64.toInt_maxValue
  have hmin := Int64.toInt_minValue
  have hazero : a.toInt ≠ 0 := mt Int64.toInt_eq_zero_iff.mp ha
  have hbzero : b.toInt ≠ 0 := mt Int64.toInt_eq_zero_iff.mp hb
  have hcomm := mul_comm a.toInt b.toInt
  unfold mulWouldOverflow
  split_ifs with hapos hbpos hbpos <;> rw [Int64.gt_zero_iff] at hapos hbpos
  · have hbound := @tdiv_lt_iff_pos (2 ^ 63 - 1) b.toInt a.toInt (by decide) hbpos
    have hpos := Int.mul_pos hapos hbpos
    rw [above_quotient hb (fits_tdiv (by rw [hmax]; omega)), Option.some_inj, decide_eq_decide, hmax,
      hbound]
    unfold Fits
    omega
  · have hbound := @lt_tdiv_iff_neg (-2 ^ 63) a.toInt b.toInt (by decide) hapos
    have hneg := Int.mul_neg_of_pos_of_neg hapos (lt_of_le_of_ne (not_lt.mp hbpos) hbzero)
    rw [below_quotient ha (fits_tdiv (by omega)), Option.some_inj, decide_eq_decide, hmin, hbound]
    unfold Fits
    omega
  · have hbound := @lt_tdiv_iff_neg (-2 ^ 63) b.toInt a.toInt (by decide) hbpos
    have hneg := Int.mul_neg_of_neg_of_pos (lt_of_le_of_ne (not_lt.mp hapos) hazero) hbpos
    rw [below_quotient hb (fits_tdiv (by omega)), Option.some_inj, decide_eq_decide, hmin, hbound]
    unfold Fits
    omega
  · have haneg := lt_of_le_of_ne (not_lt.mp hapos) hazero
    have hbneg := lt_of_le_of_ne (not_lt.mp hbpos) hbzero
    have hbound := @lt_tdiv_iff_divisor_neg (2 ^ 63 - 1) a.toInt b.toInt (by decide) haneg
    have hpos := Int.mul_pos_of_neg_of_neg haneg hbneg
    rw [below_quotient ha (fits_tdiv (by rw [hmax]; omega)), Option.some_inj, decide_eq_decide, hmax,
      hbound]
    unfold Fits
    omega

/-! ### The results -/

/-- A test that decides whether the result fits, before an operation that is exact where it
does. -/
theorem tested_exact {overflow : Option Bool} {result : Option Int64} {x : ℤ}
    (htest : overflow = some (decide ¬Fits x))
    (hresult : Fits x → ∃ c, result = some c ∧ c.toInt = x) :
    ∃ r, (overflow.bind fun overflow => if overflow then some none else result.map some) = some r ∧
      ∀ v : Int64, r = some v ↔ v.toInt = x := by
  rw [htest, Option.bind_some]
  by_cases hfits : Fits x
  · obtain ⟨c, hc, hvalue⟩ := hresult hfits
    refine ⟨some c, ?_, fun v => ?_⟩
    · rw [if_neg (by simpa using hfits), hc, Option.map_some]
    · rw [Option.some_inj, ← hvalue, Int64.toInt_inj]
      exact eq_comm
  · refine ⟨none, if_pos (decide_eq_true hfits), fun v => ?_⟩
    exact iff_of_false (Option.some_ne_none v).symm fun hvalue =>
      hfits (exists_toInt_iff.mp ⟨v, hvalue⟩)

theorem checkedAddI64_exact (a b : Int64) :
    ∃ r, checkedAddI64 a b = some r ∧ ∀ v, r = some v ↔ v.toInt = a.toInt + b.toInt :=
  tested_exact (addWouldOverflow_eq a b) addSigned_eq

theorem checkedMulI64_exact (a b : Int64) :
    ∃ r, checkedMulI64 a b = some r ∧ ∀ v, r = some v ↔ v.toInt = a.toInt * b.toInt := by
  unfold checkedMulI64
  split_ifs with hzero
  · have hproduct : a.toInt * b.toInt = 0 := by
      rw [mul_eq_zero, Int64.toInt_eq_zero_iff, Int64.toInt_eq_zero_iff]
      exact hzero
    refine ⟨some 0, rfl, fun v => ?_⟩
    rw [hproduct, Option.some_inj, Int64.toInt_eq_zero_iff]
    exact eq_comm
  · push Not at hzero
    exact tested_exact (mulWouldOverflow_eq hzero.1 hzero.2) mulSigned_eq

theorem checkedDivI64_exact (a b : Int64) :
    ∃ r, checkedDivI64 a b = some r ∧
      ∀ v, r = some v ↔ b ≠ 0 ∧ v.toInt = a.toInt.tdiv b.toInt := by
  unfold checkedDivI64
  split_ifs with hzero hmin
  · exact ⟨none, rfl, fun v => iff_of_false (Option.some_ne_none v).symm fun hv => hv.1 hzero⟩
  · refine ⟨none, rfl, fun v => iff_of_false (Option.some_ne_none v).symm fun hv => ?_⟩
    have hlt := v.toInt_lt
    rw [hv.2, hmin.1, hmin.2] at hlt
    exact absurd hlt (by decide)
  · have hother : ¬(a.toInt = -2 ^ 63 ∧ b.toInt = -1) := by
      intro hboth
      exact hmin ⟨Int64.toInt_inj.mp hboth.1, Int64.toInt_inj.mp hboth.2⟩
    obtain ⟨c, hc, hvalue⟩ := divSigned_eq hzero (fits_tdiv hother)
    refine ⟨some c, by rw [hc, Option.map_some], fun v => ?_⟩
    rw [Option.some_inj, ← hvalue, Int64.toInt_inj]
    exact ⟨fun hv => ⟨hzero, hv.symm⟩, fun hv => hv.2.symm⟩

/-- The unsigned case of a test. -/
theorem tested_exact_unsigned {exceeds : Prop} [Decidable exceeds] {result : Option UInt64} {x : ℕ}
    (htest : exceeds ↔ 2 ^ 64 ≤ x) (hresult : x < 2 ^ 64 → ∃ c, result = some c ∧ c.toNat = x) :
    ∃ r, (if exceeds then some none else result.map some) = some r ∧
      ∀ v : UInt64, r = some v ↔ v.toNat = x := by
  by_cases hexceeds : exceeds
  · have hlarge := htest.mp hexceeds
    refine ⟨none, if_pos hexceeds, fun v => iff_of_false (Option.some_ne_none v).symm fun hv => ?_⟩
    have hlt := v.toNat_lt
    omega
  · obtain ⟨c, hc, hvalue⟩ := hresult (Nat.not_le.mp (mt htest.mpr hexceeds))
    refine ⟨some c, by rw [if_neg hexceeds, hc, Option.map_some], fun v => ?_⟩
    rw [Option.some_inj, ← hvalue, UInt64.toNat_inj]
    exact eq_comm

theorem checkedAddU64_exact (a b : UInt64) :
    ∃ r, checkedAddU64 a b = some r ∧ ∀ v, r = some v ↔ v.toNat = a.toNat + b.toNat := by
  obtain ⟨room, hroom, hvalue⟩ := subUnsigned_eq (le_u64Max b)
  have htest : a > room ↔ 2 ^ 64 ≤ a.toNat + b.toNat := by
    have hb := b.toNat_lt
    rw [gt_iff_lt, UInt64.lt_iff_toNat_lt, hvalue, u64Max_toNat]
    omega
  unfold checkedAddU64
  rw [hroom, Option.bind_some]
  exact tested_exact_unsigned htest addUnsigned_eq

theorem checkedAddU32_exact (a b : UInt32) :
    ∃ r, checkedAddU32 a b = some r ∧
      ∀ v, r = some v ↔ v.toNat = a.toNat + b.toNat ∧ v.toNat < 2 ^ 32 := by
  have ha := a.toNat_lt
  have hb := b.toNat_lt
  have hsum : a.toUInt64.toNat + b.toUInt64.toNat = a.toNat + b.toNat := by
    rw [UInt32.toNat_toUInt64, UInt32.toNat_toUInt64]
  obtain ⟨sum, hadd, hvalue⟩ := addUnsigned_eq (a := a.toUInt64) (b := b.toUInt64) (by omega)
  refine ⟨_, by rw [checkedAddU32, hadd, Option.map_some], fun v => ?_⟩
  have hbound : sum > 0xFFFFFFFF ↔ 2 ^ 32 ≤ a.toNat + b.toNat := by
    rw [gt_iff_lt, UInt64.lt_iff_toNat_lt, hvalue, hsum]
    exact Nat.lt_iff_add_one_le
  have hv : v.toNat = a.toNat + b.toNat ↔ sum = v := by
    rw [← hsum, ← hvalue, UInt64.toNat_inj]
    exact eq_comm
  split_ifs with hlarge
  · have hover := hbound.mp hlarge
    exact iff_of_false id fun hv => by omega
  · have hfits := mt hbound.mpr hlarge
    rw [Option.some_inj, ← hv]
    constructor
    · exact fun heq => ⟨heq, by omega⟩
    · exact fun heq => heq.1

theorem checkedMulU64_exact (a b : UInt64) :
    ∃ r, checkedMulU64 a b = some r ∧ ∀ v, r = some v ↔ v.toNat = a.toNat * b.toNat := by
  unfold checkedMulU64
  split_ifs with hzero
  · have hproduct : a.toNat * b.toNat = (0 : UInt64).toNat := by
      rcases hzero with rfl | rfl
      · exact Nat.zero_mul _
      · exact Nat.mul_zero _
    refine ⟨some 0, rfl, fun v => ?_⟩
    rw [hproduct, Option.some_inj, UInt64.toNat_inj]
    exact eq_comm
  · push Not at hzero
    obtain ⟨most, hmost, hvalue⟩ := divUnsigned_eq (a := u64Max) hzero.2
    have hpos : 0 < b.toNat := Nat.pos_of_ne_zero fun hb => hzero.2 (UInt64.toNat_inj.mp hb)
    have htest : a > most ↔ 2 ^ 64 ≤ a.toNat * b.toNat := by
      rw [gt_iff_lt, UInt64.lt_iff_toNat_lt, hvalue, u64Max_toNat, Nat.div_lt_iff_lt_mul hpos]
      omega
    rw [hmost, Option.bind_some]
    exact tested_exact_unsigned htest mulUnsigned_eq

/-- The checked operations give a result exactly when there is one to represent, and none of the
operations inside their tests is without a value. -/
theorem checked_arithmetic_exact :
    (∀ a b : Int64, ∃ r, checkedAddI64 a b = some r ∧
      ∀ v, r = some v ↔ v.toInt = a.toInt + b.toInt) ∧
    (∀ a b : UInt64, ∃ r, checkedAddU64 a b = some r ∧
      ∀ v, r = some v ↔ v.toNat = a.toNat + b.toNat) ∧
    (∀ a b : UInt32, ∃ r, checkedAddU32 a b = some r ∧
      ∀ v, r = some v ↔ v.toNat = a.toNat + b.toNat ∧ v.toNat < 2 ^ 32) ∧
    (∀ a b : Int64, ∃ r, checkedMulI64 a b = some r ∧
      ∀ v, r = some v ↔ v.toInt = a.toInt * b.toInt) ∧
    (∀ a b : UInt64, ∃ r, checkedMulU64 a b = some r ∧
      ∀ v, r = some v ↔ v.toNat = a.toNat * b.toNat) ∧
    ∀ a b : Int64, ∃ r, checkedDivI64 a b = some r ∧
      ∀ v, r = some v ↔ b ≠ 0 ∧ v.toInt = a.toInt.tdiv b.toInt :=
  ⟨checkedAddI64_exact, checkedAddU64_exact, checkedAddU32_exact, checkedMulI64_exact,
    checkedMulU64_exact, checkedDivI64_exact⟩

end IncastGovernor
