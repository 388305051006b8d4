import IncastGovernor.Governor.Representation

/-! Accepted windows are classified. The check inside the classification knows no sequences,
so it passes whatever the governor's own check passes; hysteresis gives back a recorded kind
only above the instantaneous one, and nothing is below Unknown. So no window is recorded, and
none decided but by a refusal, without a classification. -/

namespace IncastGovernor

theorem computeSynchronization_evaluated (bundle : EvidenceBundle) (metrics : FanInMetrics)
    (policy : GovernorPolicy) : (computeSynchronization bundle metrics policy).evaluated = true := rfl

theorem classifyInstantaneous_ne_unknown {metrics : FanInMetrics}
    {synchronization : SynchronizationEvidence} (policy : GovernorPolicy)
    (h : synchronization.evaluated = true) :
    classifyInstantaneous metrics synchronization policy ≠ .unknown := by
  unfold classifyInstantaneous
  simp only
  rw [if_neg (not_not.mpr h)]
  split_ifs <;> exact IncidentKind.noConfusion

/-- A kind held in place of the instantaneous one ranks above it, or is the stepped-down one. -/
theorem applyHysteresis_ne_unknown (policy : GovernorPolicy) (context : ClassificationContext)
    {instantaneous : IncidentKind} (h : instantaneous ≠ .unknown) :
    (applyHysteresis policy context instantaneous).1 ≠ .unknown := by
  have hprior : 0 < context.priorKind.rank → context.priorKind ≠ .unknown := by
    intro hrank hunknown
    rw [hunknown] at hrank
    exact absurd hrank (by decide)
  unfold applyHysteresis
  simp only
  split_ifs with hheld hdwelled hsteps
  · exact fun hr => IncidentKind.noConfusion hr
  · exact h
  · exact hprior hheld.2
  · exact h

theorem classify_known {bundle : EvidenceBundle} {policy : GovernorPolicy}
    (collisions : List SenderCollision) (context : ClassificationContext)
    (h : AuthorityGranted bundle policy noSequences) :
    (classify bundle policy collisions context).kind ≠ .unknown := by
  rw [(classify_kind h).1]
  apply applyHysteresis_ne_unknown
  rw [classify_instantaneousKind h]
  apply classifyInstantaneous_ne_unknown
  rw [classify_synchronization, computeSynchronization_evaluated]

/-- A window that was classified on authoritative evidence. -/
def WindowRecord.Known (record : WindowRecord) : Prop :=
  record.authoritative = true ∧ record.kind ≠ .unknown

namespace Governor

variable {g : Governor} {bundle : EvidenceBundle}

/-- Evidence the governor's check takes is taken by the check inside the classification. -/
theorem withoutSequences_of_check (h : (g.authorityCheck bundle).reason = .none) :
    AuthorityGranted bundle g.config.policy noSequences :=
  (checkAuthority_reason_iff.mp h).withoutSequences

theorem windowClassification_known (h : (g.authorityCheck bundle).reason = .none) :
    (g.windowClassification bundle).authoritative = true ∧
      (g.windowClassification bundle).kind ≠ .unknown := by
  have hgranted := withoutSequences_of_check h
  constructor
  · rw [(windowClassification_fields g bundle).2.2.2.2.1]
    exact classify_authoritative hgranted
  · rw [windowClassification_eq]
    split_ifs
    · exact IncidentKind.noConfusion
    · exact classify_known _ _ hgranted

/-! ### Runs -/

/-- The history an operation restores, if it restores one, is of known windows. -/
def restoresKnown : Operation → Prop
  | .restoreState state => ∀ record ∈ state.history, record.Known
  | _ => True

theorem windowRecord_known (h : g.accepts bundle) : (g.windowRecord bundle).Known :=
  windowClassification_known h.2

theorem evaluate_known (hs : ∀ record ∈ g.state.history, record.Known) :
    ∀ record ∈ (g.evaluate bundle).2.state.history, record.Known := by
  intro record hrecord
  rcases evaluate_cases g bundle with ⟨_, decision, reason, detail, he⟩ |
    ⟨_, view, denial, _, _, he⟩ | ⟨haccepts, _, he⟩
  · rw [he] at hrecord
    exact hs record hrecord
  · have hfenced : (g.fence bundle view denial.1 denial.2).2.state.history = g.state.history :=
      countedState_history g bundle
    rw [he, hfenced] at hrecord
    exact hs record hrecord
  · have hcommitted : (g.commit bundle (g.effect bundle)).2.state.history =
        trimHistory g.config.maxHistory
          ((g.effectState bundle (g.effect bundle)).history ++ [g.windowRecord bundle]) := rfl
    rw [he, hcommitted, effectState_history] at hrecord
    rcases List.mem_append.mp (trimHistory_subset _ _ hrecord) with hold | hnew
    · exact hs record hold
    · rw [List.mem_singleton.mp hnew]
      exact windowRecord_known haccepts

/-- What is decided without a refusal has the kind of the classified window. -/
theorem evaluate_kind_known (h : (g.evaluate bundle).1.outcome ≠ .refused) :
    (g.evaluate bundle).1.kind ≠ .unknown := by
  rcases evaluate_cases g bundle with ⟨_, decision, reason, detail, he⟩ |
    ⟨haccepts, view, denial, _, _, he⟩ | ⟨haccepts, _, he⟩
  · rw [he] at h
    exact absurd rfl h
  · have hkind : (g.fence bundle view denial.1 denial.2).1.kind =
        (g.windowClassification bundle).kind := rfl
    rw [he, hkind]
    exact (windowClassification_known haccepts.2).2
  · rw [he, commit_kind, effectDecision_kind]
    exact (windowClassification_known haccepts.2).2

/-- No operation but a restore leaves a window that was not classified. -/
theorem known_step {operation : Operation} (hs : ∀ record ∈ g.state.history, record.Known)
    (hr : restoresKnown operation) : ∀ record ∈ (g.step operation).state.history, record.Known := by
  have hby := step_history g operation
  generalize hafter : (g.step operation).state.history = history at hby ⊢
  cases hby with
  | kept => exact hs
  | recorded bundle =>
    rw [← hafter]
    exact evaluate_known hs
  | restored => exact hr
  | reset => exact List.forall_mem_nil _

/-- In every state a run reaches, a bundle the governor's check takes passes the check inside the
classification and is authoritatively classified; every recorded window was, and no decision but a
refusal is without a kind. -/
theorem run_windows_known (config : GovernorConfig) (operations : List Operation)
    (hrestored : ∀ operation ∈ operations, restoresKnown operation) :
    (∀ record ∈ (Foundation.run step (create config) operations).state.history, record.Known) ∧
      ∀ bundle,
        (((Foundation.run step (create config) operations).authorityCheck bundle).reason = .none →
          (checkAuthority bundle (Foundation.run step (create config) operations).config.policy
            noSequences).reason = .none ∧
          ((Foundation.run step (create config) operations).classified bundle).authoritative = true ∧
          ((Foundation.run step (create config) operations).classified bundle).kind ≠ .unknown) ∧
        (((Foundation.run step (create config) operations).evaluate bundle).1.outcome ≠ .refused →
          ((Foundation.run step (create config) operations).evaluate bundle).1.kind ≠ .unknown) := by
  constructor
  · refine Foundation.run_invariant_of_calls (P := fun g : Governor => ∀ record ∈ g.state.history, record.Known)
      (C := fun _ operation => restoresKnown operation) (fun _ _ hs hr => known_step hs hr)
      (List.forall_mem_nil _) fun call hcall => ?_
    exact hrestored call.2 (Foundation.input_of_mem_calls step hcall)
  · intro bundle
    generalize Foundation.run step (create config) operations = g
    refine ⟨fun hcheck => ?_, evaluate_kind_known⟩
    have hgranted := withoutSequences_of_check hcheck
    exact ⟨checkAuthority_reason_iff.mpr hgranted, classify_authoritative hgranted,
      classify_known _ _ hgranted⟩

theorem run_windows_known_sample :
    (Foundation.run step (create sampleConfig)
        [.evaluate incidentWindow, .evaluate (calmWindow 2 2000000000)]).state.history.length = 2 ∧
      ∀ record ∈ (Foundation.run step (create sampleConfig)
        [.evaluate incidentWindow, .evaluate (calmWindow 2 2000000000)]).state.history,
          record.Known :=
  ⟨by decide +kernel,
    (run_windows_known sampleConfig [.evaluate incidentWindow, .evaluate (calmWindow 2 2000000000)]
      (by simp [restoresKnown])).1⟩

end Governor

end IncastGovernor
