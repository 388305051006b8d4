import Mathlib.Order.Bounds.Basic
import Mathlib.Order.Lattice
import Mathlib.Order.MinMax

/-! The least sufficient value of a range. Where sufficiency begins at a threshold, the least
sufficient value of a range, or its top when there is none, is the threshold clamped
into the range. -/

namespace IncastGovernor.Foundation

variable {α : Type*} [LinearOrder α]

/-- The least value of a range with a property, or the top of the range when none has it. -/
def LeastInRange (low high : α) (P : α → Prop) (chosen : α) : Prop :=
  IsLeast {v | low ≤ v ∧ v ≤ high ∧ P v} chosen ∨
    chosen = high ∧ ∀ v, low ≤ v → v ≤ high → ¬P v

variable {low high threshold wanted needed chosen : α} {P : α → Prop}

theorem leastInRange_iff (h : low ≤ high) (hP : ∀ v, P v ↔ threshold ≤ v) :
    LeastInRange low high P chosen ↔ chosen = max low (min threshold high) := by
  constructor
  · rintro (⟨⟨hlow, hhigh, hc⟩, hleast⟩ | ⟨rfl, hnone⟩)
    · rw [hP] at hc
      rw [min_eq_left (hc.trans hhigh)]
      refine le_antisymm (hleast ⟨le_max_left _ _, max_le h (hc.trans hhigh), ?_⟩) (max_le hlow hc)
      rw [hP]
      exact le_max_right _ _
    · have hlt : chosen < threshold := not_le.mp fun hle => hnone chosen h le_rfl ((hP chosen).mpr hle)
      rw [min_eq_right hlt.le, max_eq_right h]
  · rintro rfl
    rcases le_or_gt threshold high with hle | hlt
    · left
      rw [min_eq_left hle]
      refine ⟨⟨le_max_left _ _, max_le h hle, (hP _).mpr (le_max_right _ _)⟩, ?_⟩
      rintro v ⟨hlow, -, hv⟩
      exact max_le hlow ((hP v).mp hv)
    · right
      rw [min_eq_right hlt.le, max_eq_right h]
      refine ⟨rfl, fun v _ hv hc => ?_⟩
      exact absurd (hlt.trans_le ((hP v).mp hc)) (not_lt.mpr hv)

/-- A value below the threshold is clamped as the threshold is exactly when the clamp hides the
difference. -/
theorem clamp_eq_clamp_iff (h : low ≤ high) (hw : wanted ≤ needed) :
    max low (min wanted high) = max low (min needed high) ↔
      wanted = needed ∨ needed ≤ low ∨ high ≤ wanted ∨ high ≤ low := by
  constructor
  · intro heq
    by_contra hnot
    push Not at hnot
    obtain ⟨hne, hlow, hhigh, hrange⟩ := hnot
    have hlt : wanted < needed := lt_of_le_of_ne hw hne
    rw [min_eq_left hhigh.le] at heq
    have hmax : max low wanted < max low (min needed high) := by
      rw [max_eq_right (le_min hlow.le h)]
      exact max_lt (lt_min hlow hrange) (lt_min hlt hhigh)
    exact hmax.ne heq
  · rintro (rfl | hn | hh | hr)
    · rfl
    · rw [max_eq_left ((min_le_left _ _).trans hn), max_eq_left ((min_le_left _ _).trans (hw.trans hn))]
    · rw [min_eq_right hh, min_eq_right (hh.trans hw)]
    · rw [max_eq_left ((min_le_right _ _).trans hr), max_eq_left ((min_le_right _ _).trans hr)]

end IncastGovernor.Foundation
