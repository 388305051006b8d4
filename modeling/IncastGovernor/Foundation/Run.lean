import Mathlib.Data.List.Basic

/-! Runs of a deterministic machine. A machine is a step function; whatever a run
leaves open (clocks, failing devices, iteration orders) is part of its inputs. A
run is a list of inputs, its calls pair every input with the state it met, and an
invariant is proved once for one step and then holds of every state reached. -/

namespace IncastGovernor.Foundation

variable {σ ι : Type*} (step : σ → ι → σ)

/-- The state a list of inputs leads to. -/
def run (s : σ) (inputs : List ι) : σ := inputs.foldl step s

/-- The inputs of a run, each with the state it was given to. -/
def calls : σ → List ι → List (σ × ι)
  | _, [] => []
  | s, i :: rest => (s, i) :: calls (step s i) rest

@[simp] theorem run_nil (s : σ) : run step s [] = s := rfl

@[simp] theorem run_cons (s : σ) (i : ι) (rest : List ι) :
    run step s (i :: rest) = run step (step s i) rest := rfl

@[simp] theorem calls_nil (s : σ) : calls step s [] = [] := rfl

@[simp] theorem calls_cons (s : σ) (i : ι) (rest : List ι) :
    calls step s (i :: rest) = (s, i) :: calls step (step s i) rest := rfl

theorem calls_append (s : σ) (xs ys : List ι) :
    calls step s (xs ++ ys) = calls step s xs ++ calls step (run step s xs) ys := by
  induction xs generalizing s with
  | nil => rfl
  | cons i rest ih => simp [ih]

@[simp] theorem calls_length (s : σ) (inputs : List ι) :
    (calls step s inputs).length = inputs.length := by
  induction inputs generalizing s with
  | nil => rfl
  | cons i rest ih => rw [calls_cons, List.length_cons, List.length_cons, ih]

/-- A machine with a view that is a machine itself: the calls of the view. -/
theorem calls_map {τ : Type*} (step' : τ → ι → τ) (view : σ → τ)
    (h : ∀ s i, view (step s i) = step' (view s) i) (s : σ) (inputs : List ι) :
    (calls step s inputs).map (fun c => (view c.1, c.2)) = calls step' (view s) inputs := by
  induction inputs generalizing s with
  | nil => rfl
  | cons i rest ih => rw [calls_cons, calls_cons, List.map_cons, ih, h]

/-- A call is a prefix of the run together with the next input. -/
theorem mem_calls_iff {s t : σ} {i : ι} {inputs : List ι} :
    (t, i) ∈ calls step s inputs ↔ ∃ pre post, inputs = pre ++ i :: post ∧ t = run step s pre := by
  induction inputs generalizing s with
  | nil => simp
  | cons j rest ih =>
    rw [calls_cons, List.mem_cons, ih]
    constructor
    · rintro (h | ⟨pre, post, rfl, rfl⟩)
      · obtain ⟨rfl, rfl⟩ := Prod.mk.inj h
        exact ⟨[], rest, rfl, rfl⟩
      · exact ⟨j :: pre, post, rfl, rfl⟩
    · rintro ⟨pre, post, h, rfl⟩
      cases pre with
      | nil =>
        obtain ⟨rfl, rfl⟩ := List.cons.inj h
        exact Or.inl rfl
      | cons k pre =>
        obtain ⟨rfl, rfl⟩ := List.cons.inj h
        exact Or.inr ⟨pre, post, rfl, rfl⟩

theorem input_of_mem_calls {s : σ} {c : σ × ι} {inputs : List ι} (h : c ∈ calls step s inputs) :
    c.2 ∈ inputs := by
  obtain ⟨pre, post, rfl, -⟩ := (mem_calls_iff step (t := c.1) (i := c.2)).mp h
  exact List.mem_append_right _ List.mem_cons_self

section Invariant

variable {step} {P : σ → Prop}

/-- What one step preserves, a run preserves. -/
theorem run_invariant (hstep : ∀ s i, P s → P (step s i)) {s : σ} (hs : P s) (inputs : List ι) :
    P (run step s inputs) := by
  induction inputs generalizing s with
  | nil => exact hs
  | cons i rest ih => exact ih (hstep s i hs)

/-- The same for an invariant that only the steps meeting a condition preserve. -/
theorem run_invariant_of_calls {C : σ → ι → Prop} (hstep : ∀ s i, P s → C s i → P (step s i))
    {s : σ} (hs : P s) {inputs : List ι} (hC : ∀ c ∈ calls step s inputs, C c.1 c.2) :
    P (run step s inputs) := by
  induction inputs generalizing s with
  | nil => exact hs
  | cons i rest ih =>
    have hi : C s i := hC (s, i) (by simp)
    exact ih (hstep s i hs hi) (fun c hc => hC c (by simp [hc]))

/-- The state of every call of such a run satisfies the invariant. -/
theorem calls_invariant_of_calls {C : σ → ι → Prop}
    (hstep : ∀ s i, P s → C s i → P (step s i)) {s : σ} (hs : P s) {inputs : List ι}
    (hC : ∀ c ∈ calls step s inputs, C c.1 c.2) {c : σ × ι} (hc : c ∈ calls step s inputs) :
    P c.1 := by
  obtain ⟨pre, post, hinputs, ht⟩ := (mem_calls_iff step (t := c.1) (i := c.2)).mp hc
  rw [ht]
  refine run_invariant_of_calls hstep hs fun d hd => hC d ?_
  rw [hinputs, calls_append]
  exact List.mem_append_left _ hd

/-- The state of every call satisfies the invariant. -/
theorem calls_invariant (hstep : ∀ s i, P s → P (step s i)) {s : σ} (hs : P s) {inputs : List ι}
    {c : σ × ι} (hc : c ∈ calls step s inputs) : P c.1 := by
  obtain ⟨pre, post, _, ht⟩ := (mem_calls_iff step (t := c.1) (i := c.2)).mp hc
  rw [ht]
  exact run_invariant hstep hs pre

/-- Where a step leaves `P` exactly when it meets `C`, all states along a run satisfy `P` exactly
when all its calls meet `C`. The steps may rely on an invariant `I` that every step keeps. -/
theorem prefixes_iff_calls {I : σ → Prop} {C : σ → ι → Prop} {s : σ} {inputs : List ι}
    (hkept : ∀ s, ∀ i ∈ inputs, I s → I (step s i))
    (hstep : ∀ s, ∀ i ∈ inputs, I s → P s → (P (step s i) ↔ C s i)) (hI : I s) (hP : P s) :
    (∀ reached, reached <+: inputs → P (run step s reached)) ↔
      ∀ call ∈ calls step s inputs, C call.1 call.2 := by
  induction inputs generalizing s with
  | nil => simpa using hP
  | cons i rest ih =>
    have hfirst := hstep s i List.mem_cons_self hI hP
    have hrest := fun hnext => @ih (step s i)
      (fun s j hj => hkept s j (List.mem_cons_of_mem i hj))
      (fun s j hj => hstep s j (List.mem_cons_of_mem i hj))
      (hkept s i List.mem_cons_self hI) hnext
    rw [calls_cons, List.forall_mem_cons]
    constructor
    · intro h
      have hnext : P (step s i) := h [i] ⟨rest, rfl⟩
      refine ⟨hfirst.mp hnext, (hrest hnext).mp fun reached hreached => ?_⟩
      exact h (i :: reached) (List.cons_prefix_cons.mpr ⟨rfl, hreached⟩)
    · rintro ⟨hi, hcalls⟩ reached hreached
      rcases List.prefix_cons_iff.mp hreached with rfl | ⟨later, rfl, hlater⟩
      · exact hP
      · exact (hrest (hfirst.mpr hi)).mpr hcalls later hlater

end Invariant

end IncastGovernor.Foundation
