import IncastGovernor.Foundation.Run

/-! Invariants that mention the number of steps taken. A quantity that one step moves by at most
one stays in its range over every run that is short enough, and what a step preserves within the
range then holds along the run. A measure that no step raises bounds the steps that lower it. -/

namespace IncastGovernor.Foundation

variable {σ ι : Type*} {step : σ → ι → σ} {P : ℕ → σ → Prop} {bound : ℕ}

/-- An invariant that is indexed by the steps taken, and preserved below a bound. -/
theorem run_invariant_counted (hstep : ∀ n s i, n < bound → P n s → P (n + 1) (step s i)) {n : ℕ}
    {s : σ} (hs : P n s) (inputs : List ι) (h : n + inputs.length ≤ bound) :
    P (n + inputs.length) (run step s inputs) := by
  induction inputs generalizing n s with
  | nil => exact hs
  | cons i rest ih =>
    rw [List.length_cons] at h ⊢
    have hnext := ih (hstep n s i (by omega) hs) (by omega)
    rw [show n + (rest.length + 1) = n + 1 + rest.length by omega]
    exact hnext

/-- The state of every call of such a run satisfies it below the bound. -/
theorem calls_invariant_counted (hstep : ∀ n s i, n < bound → P n s → P (n + 1) (step s i)) {n : ℕ}
    {s : σ} (hs : P n s) {inputs : List ι} (h : n + inputs.length ≤ bound) {call : σ × ι}
    (hc : call ∈ calls step s inputs) : ∃ m < bound, P m call.1 := by
  obtain ⟨pre, post, rfl, hcall⟩ := (mem_calls_iff step (t := call.1) (i := call.2)).mp hc
  rw [List.length_append, List.length_cons] at h
  refine ⟨n + pre.length, by omega, ?_⟩
  rw [hcall]
  exact run_invariant_counted hstep hs pre (by omega)

/-- A measure that the counted steps lower, and no step raises, bounds their number. -/
theorem counted_calls_le {I : σ → Prop} {counted : σ → ι → Bool} {measure : σ → ℕ}
    (hkept : ∀ s i, I s → I (step s i))
    (hfall : ∀ s i, I s → measure (step s i) + (counted s i).toNat ≤ measure s) {s : σ} (hs : I s)
    (inputs : List ι) :
    (calls step s inputs).countP (fun call => counted call.1 call.2) +
      measure (run step s inputs) ≤ measure s := by
  induction inputs generalizing s with
  | nil => simp
  | cons i rest ih =>
    have hrest := ih (hkept s i hs)
    have hfirst := hfall s i hs
    rw [calls_cons, List.countP_cons, run_cons]
    cases hcounted : counted s i <;> simp [hcounted] at hfirst ⊢ <;> omega

end IncastGovernor.Foundation
