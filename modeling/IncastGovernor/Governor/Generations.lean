import IncastGovernor.Foundation.Watermark
import IncastGovernor.Governor.Terminal

/-! The destination generation. The state keeps the largest generation it has committed, and a
bundle below it is refused. A fenced window is accepted without being committed, so its
generation is not kept: a run goes back at most behind such a window. -/

namespace IncastGovernor

namespace Governor

variable {g : Governor} {bundle : EvidenceBundle}

/-- The valid destination generation of an evaluation that is not refused. -/
def acceptedGeneration (g : Governor) : Operation → Option DestinationGeneration
  | .evaluate bundle =>
    if (g.evaluate bundle).1.outcome ≠ .refused ∧ bundle.destinationGeneration.valid then
      some bundle.destinationGeneration
    else none
  | _ => none

/-- An accepted window that is fenced shows a destination generation above the stored one. -/
def fencesAhead (g : Governor) : Operation → Prop
  | .evaluate bundle =>
    g.accepts bundle ∧ (g.liveFence bundle).isSome ∧ bundle.destinationGeneration.valid ∧
      g.state.destinationGeneration < bundle.destinationGeneration
  | _ => False

instance (g : Governor) : ∀ operation : Operation, Decidable (g.fencesAhead operation)
  | .evaluate bundle =>
    inferInstanceAs (Decidable (g.accepts bundle ∧ (g.liveFence bundle).isSome ∧
      bundle.destinationGeneration.valid ∧
      g.state.destinationGeneration < bundle.destinationGeneration))
  | .configurePolicy _ _ | .bindAuthority _ _ _ _ _ | .retire _ _ _ | .restoreState _ |
    .shutdown _ | .reset => inferInstanceAs (Decidable False)

/-- The stored generation as a number. -/
def generationMark (g : Governor) : ℕ := g.state.destinationGeneration.value.toNat

/-! ### The generation an operation leaves -/

theorem countedState_destinationGeneration (g : Governor) (bundle : EvidenceBundle) :
    (g.countedState bundle).destinationGeneration = g.state.destinationGeneration := by
  unfold countedState
  simp only
  split_ifs <;> rfl

theorem effectState_destinationGeneration (g : Governor) (bundle : EvidenceBundle)
    (effect : Effect) :
    (g.effectState bundle effect).destinationGeneration = g.state.destinationGeneration := by
  rw [← countedState_destinationGeneration g bundle]
  cases effect with
  | noAction live => cases live <;> rfl
  | _ => rfl

/-- A committed window raises the stored generation to its own. -/
theorem commit_generation (effect : Effect) :
    g.generationMark ≤ (g.commit bundle effect).2.generationMark ∧
      (bundle.destinationGeneration.valid →
        bundle.destinationGeneration.value.toNat ≤ (g.commit bundle effect).2.generationMark) := by
  have hstate : (g.commit bundle effect).2.state.destinationGeneration =
      if bundle.destinationGeneration.valid ∧
          bundle.destinationGeneration > g.state.destinationGeneration then
        bundle.destinationGeneration
      else g.state.destinationGeneration := by
    rw [← effectState_destinationGeneration g bundle effect]
    rfl
  unfold generationMark
  rw [hstate]
  split_ifs with hc
  · exact ⟨(UInt64.lt_iff_toNat_lt.mp hc.2).le, fun _ => le_rfl⟩
  · refine ⟨le_rfl, fun hv => Nat.not_lt.mp fun hlt => hc ⟨hv, ?_⟩⟩
    exact UInt64.lt_iff_toNat_lt.mpr hlt

theorem fence_generation (view : LiveView) (reason : RefusalReason) (detail : Text) :
    (g.fence bundle view reason detail).2.generationMark = g.generationMark := by
  have hstate : (g.fence bundle view reason detail).2.state.destinationGeneration =
      (g.countedState bundle).destinationGeneration := rfl
  unfold generationMark
  rw [hstate, countedState_destinationGeneration]

/-- An operation in service never lowers the stored generation. -/
theorem generation_step (g : Governor) {operation : Operation} (ho : inService operation) :
    g.generationMark ≤ (g.step operation).generationMark := by
  have hby := step_by g operation
  generalize g.step operation = after at hby ⊢
  cases hby with
  | evaluated bundle =>
    rcases evaluate_cases g bundle with ⟨_, decision, reason, detail, he⟩ |
      ⟨_, view, denial, _, _, he⟩ | ⟨_, _, he⟩
    · rw [he]
      exact le_rfl
    · rw [he]
      exact (fence_generation view denial.1 denial.2).ge
    · rw [he]
      exact (commit_generation _).1
  | restoreRefused => exact ho.elim
  | restored => exact ho.elim
  | reset => exact ho.elim
  | _ => exact le_rfl

/-! ### Accepted generations -/

/-- An accepted generation is not below the stored one. -/
theorem generation_le_of_accepts (h : g.accepts bundle)
    (hv : bundle.destinationGeneration.valid) :
    g.generationMark ≤ bundle.destinationGeneration.value.toNat := by
  have hb := h.1
  simp only [bindingRefusal, ite_some_eq_none_iff] at hb
  have hregress := hb.2.2.2.2.1
  refine Nat.not_lt.mp fun hlt => hregress ⟨fun hz => ?_, hv, UInt64.lt_iff_toNat_lt.mpr hlt⟩
  unfold generationMark at hlt
  rw [hz] at hlt
  exact Nat.not_lt_zero _ hlt

/-- An evaluation that does not fence ahead leaves the stored generation at or above its own. -/
theorem generation_covered (h : g.accepts bundle) (hv : bundle.destinationGeneration.valid)
    (hf : ¬g.fencesAhead (.evaluate bundle)) :
    bundle.destinationGeneration.value.toNat ≤ (g.evaluate bundle).2.generationMark := by
  rcases evaluate_cases g bundle with ⟨hn, _⟩ | ⟨_, view, denial, _, hd, he⟩ | ⟨_, _, he⟩
  · exact absurd h hn
  · rw [he, fence_generation]
    refine Nat.not_lt.mp fun hlt => hf ⟨h, by simp [hd], hv, ?_⟩
    exact UInt64.lt_iff_toNat_lt.mpr hlt
  · rw [he]
    exact (commit_generation _).2 hv

/-- The stored generation is a watermark of the accepted ones, over steps that are in service and
do not fence ahead. -/
theorem generation_watermark :
    Foundation.Watermark step acceptedGeneration
      (fun generation : DestinationGeneration => generation.value.toNat) generationMark
      (fun g operation => inService operation ∧ ¬g.fencesAhead operation) := by
  have haccepted : ∀ (g : Governor) (operation : Operation) (generation : DestinationGeneration),
      g.acceptedGeneration operation = some generation →
      ∃ bundle, operation = .evaluate bundle ∧ g.accepts bundle ∧ generation.valid ∧
        bundle.destinationGeneration = generation := by
    intro g operation generation h
    cases operation with
    | evaluate bundle =>
      simp only [acceptedGeneration] at h
      split_ifs at h with hc
      rw [← Option.some.inj h]
      exact ⟨bundle, rfl, accepts_of_not_refused hc.1, hc.2, rfl⟩
    | _ => cases h
  refine ⟨fun g operation hc => generation_step g hc.1, fun g operation generation hc h => ?_,
    fun g operation generation hc h => ?_⟩
  · obtain ⟨bundle, rfl, haccepts, hv, rfl⟩ := haccepted g operation generation h
    exact generation_le_of_accepts haccepts hv
  · obtain ⟨bundle, rfl, haccepts, hv, rfl⟩ := haccepted g operation generation h
    exact generation_covered haccepts hv hc.2

/-- In a run in service none of whose fenced windows shows a generation above the stored one, the
accepted destination generations never regress. -/
theorem run_generations_never_regress {operations : List Operation}
    (ho : ∀ operation ∈ operations, inService operation)
    (hf : ∀ call ∈ Foundation.calls step g operations, ¬call.1.fencesAhead call.2) :
    (Foundation.emitted step acceptedGeneration g operations).Pairwise
      fun earlier later => earlier.value ≤ later.value := by
  have hcalls : ∀ call ∈ Foundation.calls step g operations,
      inService call.2 ∧ ¬call.1.fencesAhead call.2 :=
    fun call hcall => ⟨ho _ (Foundation.input_of_mem_calls step hcall), hf call hcall⟩
  exact (generation_watermark.emitted_pairwise hcalls).imp
    fun hle => UInt64.le_iff_toNat_le.mpr hle

/-- A window of the sample destination under a destination generation and an epoch. -/
def windowAt (window : UInt64) (now : Int64) (generation epoch : UInt64) : EvidenceBundle :=
  { incidentAt window now with destinationGeneration := ⟨generation⟩, epoch := ⟨epoch⟩ }

/-- Generations 3, 3 and 4: the accepted generations of a run without a rebinding. -/
theorem run_generations_never_regress_rising :
    (Foundation.emitted step acceptedGeneration (create sampleConfig)
        [.evaluate (windowAt 1 1000000000 3 1), .evaluate (windowAt 2 2000000000 4 1)]).Pairwise
      fun earlier later => earlier.value ≤ later.value := by
  refine run_generations_never_regress (fun operation ho => ?_) (by decide +kernel)
  simp only [List.mem_cons, List.not_mem_nil, or_false] at ho
  rcases ho with rfl | rfl <;> trivial

/-- The governor is bound to another epoch while an intervention is live; the window that fences it
shows generation 5, and the next one generation 4. -/
def regressingRun : List Operation :=
  [.evaluate (windowAt 1 1000000000 3 1), .bindAuthority ⟨2⟩ ⟨1⟩ ⟨1⟩ ⟨1⟩ ⟨9000000000⟩,
    .evaluate (windowAt 2 2000000000 5 2), .evaluate (windowAt 3 3000000000 4 2)]

theorem fenced_generation_regresses :
    ¬∀ (config : GovernorConfig) (operations : List Operation),
      (∀ operation ∈ operations, inService operation) →
        (Foundation.emitted step acceptedGeneration (create config) operations).Pairwise
          fun earlier later => earlier.value ≤ later.value := by
  intro h
  have hservice : ∀ operation ∈ regressingRun, inService operation := by
    intro operation ho
    simp only [regressingRun, List.mem_cons, List.not_mem_nil, or_false] at ho
    rcases ho with rfl | rfl | rfl | rfl <;> trivial
  have haccepted : Foundation.emitted step acceptedGeneration (create sampleConfig) regressingRun =
      [⟨3⟩, ⟨5⟩, ⟨4⟩] := by
    decide +kernel
  have hpairs := h sampleConfig regressingRun hservice
  rw [haccepted] at hpairs
  revert hpairs
  decide

end Governor

end IncastGovernor
