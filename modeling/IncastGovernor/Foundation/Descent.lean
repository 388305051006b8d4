import Mathlib.Algebra.Order.Ring.Nat
import Mathlib.Tactic.Ring

/-! Descent. A measure that falls by at least a fixed amount at every step that stays live brings
every sequence of steps to an end, within a number of steps bounded by the first measure. -/

namespace IncastGovernor.Foundation

variable {σ : Type*} {live : σ → Prop} {step : σ → σ → Prop} {measure : σ → ℕ} {drop : ℕ}

/-- A step of a live state ends it or takes the amount off its measure. -/
def Descends (live : σ → Prop) (step : σ → σ → Prop) (measure : σ → ℕ) (drop : ℕ) : Prop :=
  ∀ s t, live s → step s t → ¬live t ∨ measure t + drop ≤ measure s

theorem Descends.measure_add_le (h : Descends live step measure drop) {states : ℕ → σ}
    (hstep : ∀ n, live (states n) → step (states n) (states (n + 1))) {n : ℕ}
    (hlive : ∀ m ≤ n, live (states m)) : measure (states n) + n * drop ≤ measure (states 0) := by
  induction n with
  | zero => simp
  | succ n ih =>
    have hn : live (states n) := hlive n (Nat.le_succ n)
    have hfall : measure (states (n + 1)) + drop ≤ measure (states n) :=
      (h _ _ hn (hstep n hn)).resolve_left (not_not.mpr (hlive (n + 1) le_rfl))
    calc measure (states (n + 1)) + (n + 1) * drop
        = measure (states (n + 1)) + drop + n * drop := by ring
      _ ≤ measure (states n) + n * drop := Nat.add_le_add_right hfall _
      _ ≤ measure (states 0) := ih fun m hm => hlive m (hm.trans (Nat.le_succ n))

/-- Every sequence of steps ends. -/
theorem Descends.ends (h : Descends live step measure drop) (hdrop : 0 < drop) {states : ℕ → σ}
    (hstep : ∀ n, live (states n) → step (states n) (states (n + 1))) :
    ∃ n ≤ measure (states 0) / drop + 1, ¬live (states n) := by
  by_contra hnever
  push Not at hnever
  have hle := h.measure_add_le hstep hnever
  have hlt : measure (states 0) < (measure (states 0) / drop + 1) * drop :=
    (Nat.div_lt_iff_lt_mul hdrop).mp (Nat.lt_succ_self _)
  omega

end IncastGovernor.Foundation
