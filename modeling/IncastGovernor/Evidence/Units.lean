import IncastGovernor.Core.Ids

/-! Units. Distinct types keep rates, byte counts, durations and timestamps from
being interchanged. Signed nanoseconds wrap at 64 bits, so an age or an expiry
near the end of the range is the machine's value, not the integer's. -/

namespace IncastGovernor

structure Timestamp where
  nanos : Int64 := 0
  deriving DecidableEq

namespace Timestamp

def valid (t : Timestamp) : Prop := t.nanos ≠ 0

instance (t : Timestamp) : Decidable t.valid := inferInstanceAs (Decidable (t.nanos ≠ 0))

instance : LT Timestamp := ⟨fun a b => a.nanos < b.nanos⟩

instance (a b : Timestamp) : Decidable (a < b) := inferInstanceAs (Decidable (a.nanos < b.nanos))

instance : LE Timestamp := ⟨fun a b => a.nanos ≤ b.nanos⟩

instance (a b : Timestamp) : Decidable (a ≤ b) := inferInstanceAs (Decidable (a.nanos ≤ b.nanos))

end Timestamp

structure Duration where
  nanos : Int64 := 0
  deriving DecidableEq

namespace Duration

def positive (d : Duration) : Prop := d.nanos > 0

instance (d : Duration) : Decidable d.positive := inferInstanceAs (Decidable (d.nanos > 0))

instance : LE Duration := ⟨fun a b => a.nanos ≤ b.nanos⟩

instance (a b : Duration) : Decidable (a ≤ b) := inferInstanceAs (Decidable (a.nanos ≤ b.nanos))

instance : LT Duration := ⟨fun a b => a.nanos < b.nanos⟩

instance (a b : Duration) : Decidable (a < b) := inferInstanceAs (Decidable (a.nanos < b.nanos))

end Duration

structure Rate where
  bytesPerSecond : UInt64 := 0
  deriving DecidableEq

def Rate.positive (r : Rate) : Prop := r.bytesPerSecond ≠ 0

instance (r : Rate) : Decidable r.positive := inferInstanceAs (Decidable (r.bytesPerSecond ≠ 0))

structure Bytes where
  count : UInt64 := 0
  deriving DecidableEq

/-- `BasisPoints::kMax`, one hundred times unity. -/
def BasisPoints.kMax : UInt32 := 1000000

theorem BasisPoints.zero_le_kMax : (0 : UInt32) ≤ BasisPoints.kMax := by decide

/-- Basis points, clamped into range when they are built. -/
structure BasisPoints where
  value : UInt32 := 0
  clamped : Bool := false
  value_le : value ≤ BasisPoints.kMax := by exact BasisPoints.zero_le_kMax
  deriving DecidableEq

namespace BasisPoints

def of (value : UInt32) : BasisPoints :=
  if h : value > kMax then ⟨kMax, true, UInt32.le_refl _⟩ else ⟨value, false, UInt32.not_lt.mp h⟩

@[simp] theorem of_value (value : UInt32) :
    (of value).value = if value > kMax then kMax else value := by
  unfold of
  split <;> rfl

theorem of_value_toNat (value : UInt32) : (of value).value.toNat = min value.toNat 1000000 := by
  rw [of_value]
  split_ifs with h
  · rw [gt_iff_lt, UInt32.lt_iff_toNat_lt] at h
    exact (min_eq_right h.le).symm
  · rw [gt_iff_lt, UInt32.lt_iff_toNat_lt] at h
    exact (min_eq_left (Nat.not_lt.mp h)).symm

/-- A share cut to a bound. -/
theorem cut_toNat (share : BasisPoints) (most : UInt32) :
    (if share.value > most then of most else share).value.toNat =
      min share.value.toNat most.toNat := by
  have hshare : share.value.toNat ≤ 1000000 := UInt32.le_iff_toNat_le.mp share.value_le
  split_ifs with h
  · rw [gt_iff_lt, UInt32.lt_iff_toNat_lt] at h
    rw [of_value_toNat]
    omega
  · rw [gt_iff_lt, UInt32.lt_iff_toNat_lt] at h
    omega

end BasisPoints

/-- A ratio in basis points. A zero denominator gives zero, and a numerator too
large to be scaled gives the largest ratio whatever the denominator. -/
def ratioBp (numerator denominator : UInt64) : BasisPoints :=
  if denominator = 0 then BasisPoints.of 0
  else
    let scaled := saturatingMul numerator 10000
    if scaled = u64Max then BasisPoints.of BasisPoints.kMax
    else
      let result := scaled / denominator
      let capped := if result > BasisPoints.kMax.toUInt64 then BasisPoints.kMax.toUInt64 else result
      BasisPoints.of capped.toUInt32

theorem ratioBp_toNat (numerator denominator : UInt64) :
    (ratioBp numerator denominator).value.toNat =
      if denominator.toNat = 0 then 0
      else if 2 ^ 64 - 1 ≤ numerator.toNat * 10000 then 1000000
      else min (numerator.toNat * 10000 / denominator.toNat) 1000000 := by
  have hscaled : (saturatingMul numerator 10000).toNat =
      min (numerator.toNat * 10000) (2 ^ 64 - 1) := saturatingMul_toNat numerator 10000
  unfold ratioBp
  by_cases hzero : denominator = 0
  · rw [if_pos hzero, hzero]
    rfl
  have hpos : denominator.toNat ≠ 0 := fun h => hzero (UInt64.toNat_inj.mp h)
  rw [if_neg hzero, if_neg hpos]
  dsimp only
  by_cases hs : 2 ^ 64 - 1 ≤ numerator.toNat * 10000
  · have htop : saturatingMul numerator 10000 = u64Max := by
      rw [← UInt64.toNat_inj, hscaled, u64Max_toNat, min_eq_right hs]
    rw [if_pos htop, if_pos hs]
    rfl
  · have hbelow : saturatingMul numerator 10000 ≠ u64Max := by
      rw [ne_eq, ← UInt64.toNat_inj, hscaled, u64Max_toNat]
      omega
    have hquotient : (saturatingMul numerator 10000 / denominator).toNat =
        numerator.toNat * 10000 / denominator.toNat := by
      rw [UInt64.toNat_div, hscaled, min_eq_left (by omega)]
    have hkMax : BasisPoints.kMax.toUInt64.toNat = 1000000 := rfl
    rw [if_neg hbelow, if_neg hs, BasisPoints.of_value_toNat]
    split_ifs with hcapped
    · rw [gt_iff_lt, UInt64.lt_iff_toNat_lt, hquotient, hkMax] at hcapped
      rw [min_eq_right hcapped.le]
      rfl
    · rw [gt_iff_lt, UInt64.lt_iff_toNat_lt, hquotient, hkMax] at hcapped
      rw [UInt64.toNat_toUInt32, hquotient, Nat.mod_eq_of_lt (by omega)]

/-- A smaller denominator never lowers a ratio, unless it is zero. -/
theorem ratioBp_antitone (numerator : UInt64) {denominator other : UInt64} (hpos : denominator ≠ 0)
    (h : denominator ≤ other) :
    (ratioBp numerator other).value ≤ (ratioBp numerator denominator).value := by
  have hle := UInt64.le_iff_toNat_le.mp h
  have hne : denominator.toNat ≠ 0 := fun hz => hpos (UInt64.toNat_inj.mp hz)
  rw [UInt32.le_iff_toNat_le, ratioBp_toNat, ratioBp_toNat, if_neg (by omega), if_neg hne]
  split_ifs
  · exact Nat.le_refl _
  · exact min_le_min_right _ (Nat.div_le_div_left hle (Nat.pos_of_ne_zero hne))

/-- A larger numerator never lowers a ratio. -/
theorem ratioBp_mono (denominator : UInt64) {numerator other : UInt64} (h : numerator ≤ other) :
    (ratioBp numerator denominator).value ≤ (ratioBp other denominator).value := by
  have hle := Nat.mul_le_mul_right 10000 (UInt64.le_iff_toNat_le.mp h)
  rw [UInt32.le_iff_toNat_le, ratioBp_toNat, ratioBp_toNat]
  split_ifs with hzero hsmall hlarge
  · exact Nat.le_refl _
  · exact Nat.le_refl _
  · omega
  · exact min_le_right _ _
  · exact min_le_min_right _ (Nat.div_le_div_right hle)

theorem ratioBp_eq_iff {numerator denominator : UInt64} (h : denominator ≠ 0) :
    (ratioBp numerator denominator).value.toNat =
        min (numerator.toNat * 10000 / denominator.toNat) BasisPoints.kMax.toNat ↔
      numerator.toNat * 10000 < 2 ^ 64 - 1 ∨
        BasisPoints.kMax.toNat ≤ numerator.toNat * 10000 / denominator.toNat := by
  have hzero : denominator.toNat ≠ 0 := fun hz => h (UInt64.toNat_inj.mp hz)
  have hmax : BasisPoints.kMax.toNat = 1000000 := rfl
  rw [ratioBp_toNat, if_neg hzero, hmax]
  split_ifs with hscaled <;> omega

/-- The ratio of equal quantities. -/
theorem ratioBp_self_iff {quantity : UInt64} (h : quantity ≠ 0) :
    (ratioBp quantity quantity).value = 10000 ↔ quantity.toNat * 10000 < 2 ^ 64 - 1 := by
  have hzero : quantity.toNat ≠ 0 := fun hz => h (UInt64.toNat_inj.mp hz)
  have hself : quantity.toNat * 10000 / quantity.toNat = 10000 :=
    Nat.mul_div_cancel_left 10000 (Nat.pos_of_ne_zero hzero)
  have hvalue : (10000 : UInt32).toNat = 10000 := rfl
  rw [← UInt32.toNat_inj, ratioBp_toNat, if_neg hzero, hself, min_eq_left (by decide), hvalue]
  split_ifs with hscaled <;> omega

/-- The ratio is the exact one, cut at the largest, as long as the scaled numerator is not cut
itself or the ratio is at the largest anyway; and it orders quantities everywhere. -/
theorem ratioBp_exact_iff (numerator denominator : UInt64) (h : denominator ≠ 0) :
    ((ratioBp numerator denominator).value.toNat =
          min (numerator.toNat * 10000 / denominator.toNat) BasisPoints.kMax.toNat ↔
        numerator.toNat * 10000 < 2 ^ 64 - 1 ∨
          BasisPoints.kMax.toNat ≤ numerator.toNat * 10000 / denominator.toNat) ∧
      ((ratioBp denominator denominator).value = 10000 ↔ denominator.toNat * 10000 < 2 ^ 64 - 1) ∧
      (∀ other, numerator ≤ other →
        (ratioBp numerator denominator).value ≤ (ratioBp other denominator).value) ∧
      ∀ other, denominator ≤ other →
        (ratioBp numerator other).value ≤ (ratioBp numerator denominator).value :=
  ⟨ratioBp_eq_iff h, ratioBp_self_iff h, fun _ => ratioBp_mono denominator,
    fun _ => ratioBp_antitone numerator h⟩

theorem ratioBp_exact_iff_half :
    (ratioBp 1 2).value.toNat =
          min ((1 : UInt64).toNat * 10000 / (2 : UInt64).toNat) BasisPoints.kMax.toNat ↔
        (1 : UInt64).toNat * 10000 < 2 ^ 64 - 1 ∨
          BasisPoints.kMax.toNat ≤ (1 : UInt64).toNat * 10000 / (2 : UInt64).toNat :=
  (ratioBp_exact_iff 1 2 (by decide)).1

/-- A quantity against itself, where ten thousand of it are no longer counted. -/
theorem ratioBp_saturated :
    (ratioBp 1844674407370956 1844674407370956).value = BasisPoints.kMax ∧
      BasisPoints.kMax ≠ 10000 := by
  decide

end IncastGovernor
