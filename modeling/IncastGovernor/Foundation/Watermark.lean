import Mathlib.Order.Basic
import IncastGovernor.Foundation.Run

/-! Watermarks. A machine emits at some of its steps and keeps a mark. Where no step lowers
the mark, none emits below it and none leaves it below what it emitted, the emissions of
a run never go back. -/

namespace IncastGovernor.Foundation

variable {σ ι α β : Type*} (step : σ → ι → σ) (emit : σ → ι → Option α)

/-- What a run emits, in order. -/
def emitted (s : σ) (inputs : List ι) : List α :=
  (calls step s inputs).filterMap fun call => emit call.1 call.2

@[simp] theorem emitted_nil (s : σ) : emitted step emit s [] = [] := rfl

theorem emitted_cons (s : σ) (i : ι) (rest : List ι) :
    emitted step emit s (i :: rest) = (emit s i).toList ++ emitted step emit (step s i) rest := by
  unfold emitted
  rw [calls_cons, List.filterMap_cons]
  cases emit s i <;> rfl

/-- A mark that the steps under a condition raise to what they emit and never lower. -/
structure Watermark [Preorder β] (key : α → β) (mark : σ → β) (C : σ → ι → Prop) : Prop where
  kept : ∀ s i, C s i → mark s ≤ mark (step s i)
  above : ∀ s i a, C s i → emit s i = some a → mark s ≤ key a
  covered : ∀ s i a, C s i → emit s i = some a → key a ≤ mark (step s i)

variable {step emit} [Preorder β] {key : α → β} {mark : σ → β} {C : σ → ι → Prop}

/-- Everything a run emits is above the mark it starts from. -/
theorem Watermark.le_of_mem_emitted (h : Watermark step emit key mark C) {s : σ}
    {inputs : List ι} (hC : ∀ c ∈ calls step s inputs, C c.1 c.2) {a : α}
    (ha : a ∈ emitted step emit s inputs) : mark s ≤ key a := by
  induction inputs generalizing s with
  | nil => cases ha
  | cons i rest ih =>
    have hi : C s i := hC (s, i) List.mem_cons_self
    rw [emitted_cons, List.mem_append, Option.mem_toList] at ha
    rcases ha with ha | ha
    · exact h.above s i a hi ha
    · have hlater := ih (fun c hc => hC c (List.mem_cons_of_mem _ hc)) ha
      exact (h.kept s i hi).trans hlater

/-- The emissions of a run never go back. -/
theorem Watermark.emitted_pairwise (h : Watermark step emit key mark C) {s : σ}
    {inputs : List ι} (hC : ∀ c ∈ calls step s inputs, C c.1 c.2) :
    (emitted step emit s inputs).Pairwise fun a b => key a ≤ key b := by
  induction inputs generalizing s with
  | nil => exact List.Pairwise.nil
  | cons i rest ih =>
    have hi : C s i := hC (s, i) List.mem_cons_self
    have hrest : ∀ c ∈ calls step (step s i) rest, C c.1 c.2 :=
      fun c hc => hC c (List.mem_cons_of_mem _ hc)
    rw [emitted_cons, List.pairwise_append]
    refine ⟨?_, ih hrest, fun a ha b hb => ?_⟩
    · cases emit s i <;> simp
    · have hcovered := h.covered s i a hi (Option.mem_toList.mp ha)
      exact hcovered.trans (h.le_of_mem_emitted hrest hb)

end IncastGovernor.Foundation
