import Mathlib.Algebra.Order.BigOperators.Group.List

/-! Capped sums. An accumulator that stops at a top value holds, whatever the order
of its additions, the smaller of the exact sum and the top. -/

namespace IncastGovernor.Foundation

variable {α : Type*} [AddCommMonoid α] [LinearOrder α] [CanonicallyOrderedAdd α]

/-- The sum of a list, held at `top` once it reaches it. -/
def cappedSum (top : α) (xs : List α) : α := min xs.sum top

theorem min_add_capped (top a x : α) : min (min a top + x) top = min (a + x) top := by
  rcases le_total a top with h | h
  · rw [min_eq_left h]
  · have hx : top ≤ a + x := h.trans le_self_add
    rw [min_eq_right h, min_eq_right le_self_add, min_eq_right hx]

theorem foldl_capped_add (top a : α) (xs : List α) :
    xs.foldl (fun acc x => min (acc + x) top) (min a top) = min (a + xs.sum) top := by
  induction xs generalizing a with
  | nil => simp
  | cons x xs ih =>
    rw [List.foldl_cons, min_add_capped, ih, List.sum_cons, add_assoc]

/-- The accumulator computes the capped sum. -/
theorem foldl_eq_cappedSum (top : α) (xs : List α) :
    xs.foldl (fun acc x => min (acc + x) top) 0 = cappedSum top xs := by
  have h := foldl_capped_add top 0 xs
  rw [zero_add, min_eq_left zero_le] at h
  exact h

end IncastGovernor.Foundation
