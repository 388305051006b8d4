import IncastGovernor.Foundation.Run

/-! Two runs of a machine compared by what they show. States are related when they cannot be
told apart; a shown input keeps related states related and shows the same of both, and an
input that is hidden shows nothing and leaves the state related to what it was. Runs from
related states over inputs that agree but for hidden ones then show the same. -/

namespace IncastGovernor.Foundation

variable {σ ι ο : Type*} (step : σ → ι → σ) (shows : σ → ι → List ο)

/-- What a run shows, input after input. -/
def shown (s : σ) (inputs : List ι) : List ο :=
  (calls step s inputs).flatMap fun call => shows call.1 call.2

@[simp] theorem shown_cons (s : σ) (i : ι) (rest : List ι) :
    shown step shows s (i :: rest) = shows s i ++ shown step shows (step s i) rest := rfl

section Related

variable {step shows} {R : σ → σ → Prop}

/-- Runs over the same inputs, from related states. -/
theorem shown_eq_of_related
    (hstep : ∀ s t i, R s t → R (step s i) (step t i) ∧ shows s i = shows t i) {s t : σ}
    (h : R s t) (inputs : List ι) : shown step shows s inputs = shown step shows t inputs := by
  induction inputs generalizing s t with
  | nil => rfl
  | cons i rest ih =>
    obtain ⟨hnext, hshows⟩ := hstep s t i h
    rw [shown_cons, shown_cons, hshows, ih hnext]

/-- The conditions of an unwinding: `C` is what a hidden input has to meet. -/
structure Unwinding (step : σ → ι → σ) (shows : σ → ι → List ο) (R : σ → σ → Prop)
    (hidden : ι → Prop) (C : σ → ι → Prop) : Prop where
  consistent : ∀ s t i, R s t → ¬hidden i → R (step s i) (step t i) ∧ shows s i = shows t i
  local_ : ∀ s t i, R s t → hidden i → C s i → R (step s i) t
  silent : ∀ s i, hidden i → shows s i = []

variable {hidden : ι → Prop} [DecidablePred hidden] {C : σ → ι → Prop}

/-- A run shows what it shows without its hidden inputs. -/
theorem Unwinding.shown_filter (u : Unwinding step shows R hidden C) {s t : σ} (h : R s t)
    {inputs : List ι} (hC : ∀ call ∈ calls step s inputs, hidden call.2 → C call.1 call.2) :
    shown step shows s inputs =
      shown step shows t (inputs.filter fun i => ¬hidden i) := by
  induction inputs generalizing s t with
  | nil => rfl
  | cons i rest ih =>
    rw [calls_cons, List.forall_mem_cons] at hC
    by_cases hi : hidden i
    · rw [shown_cons, u.silent s i hi, List.nil_append, List.filter_cons_of_neg (by simpa using hi)]
      exact ih (u.local_ s t i h hi (hC.1 hi)) hC.2
    · obtain ⟨hnext, hshows⟩ := u.consistent s t i h hi
      rw [List.filter_cons_of_pos (by simpa using hi), shown_cons, shown_cons, hshows]
      rw [ih hnext hC.2]

/-- Runs from one state over inputs that differ in hidden ones only show the same. -/
theorem Unwinding.shown_eq (u : Unwinding step shows R hidden C) {s : σ} (h : R s s)
    {xs ys : List ι} (hagree : (xs.filter fun i => ¬hidden i) = ys.filter fun i => ¬hidden i)
    (hxs : ∀ call ∈ calls step s xs, hidden call.2 → C call.1 call.2)
    (hys : ∀ call ∈ calls step s ys, hidden call.2 → C call.1 call.2) :
    shown step shows s xs = shown step shows s ys := by
  rw [u.shown_filter h hxs, u.shown_filter h hys, hagree]

end Related

end IncastGovernor.Foundation
