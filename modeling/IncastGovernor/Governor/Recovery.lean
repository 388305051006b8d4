import IncastGovernor.Governor.Steps

/-! Relaxation and the recovery verdict. An evaluation computes the verdict of
`evaluate_recovery` and passes it on, and the synthesizer steps the prior intent down
without reading it. What follows is when the two nevertheless agree: exactly when no
window with an active live intervention reaches Recovery before its criteria hold. -/

namespace IncastGovernor

namespace Governor

variable {g : Governor} {bundle : EvidenceBundle}

/-- `evaluate_recovery` on the window's metrics and the tracker of that moment. -/
def windowVerdict (g : Governor) (bundle : EvidenceBundle) : RecoveryVerdict :=
  evaluateRecovery g.config.policy.recovery (g.countedState bundle).recovery
    (g.windowClassification bundle).metrics g.config.policy.recovery.enabled

/-- The decision relaxed the live intervention or retired it through a Recovery window. -/
def relaxesIntervention (decision : Decision) : Prop :=
  decision.outcome = .interventionRelaxed ∨
    (decision.outcome = .interventionRetired ∧ decision.kind = .recovery)

instance (decision : Decision) : Decidable (relaxesIntervention decision) := by
  delta relaxesIntervention; infer_instance

/-- A Recovery window whose verdict forbids relaxation leaves the reduction of the live
record as it was. -/
def keepsReduction (g : Governor) (bundle : EvidenceBundle) : Prop :=
  ∀ view, g.accepts bundle → g.liveFence bundle = none → g.liveView = some view →
    (g.windowClassification bundle).kind = .recovery → (g.windowVerdict bundle).relax = false →
    ∃ record, (g.evaluate bundle).2.state.interventions[view.before.length]? = some record ∧
      record.intent.reductionBp = view.live.intent.reductionBp ∧
      record.appliedReductionBp = view.live.appliedReductionBp

/-- Relaxation happens under the verdict of the window. -/
def relaxesUnderVerdict (g : Governor) (bundle : EvidenceBundle) : Prop :=
  (relaxesIntervention (g.evaluate bundle).1 → (g.windowVerdict bundle).relax = true) ∧
    g.keepsReduction bundle

/-- The recovery criteria, on the evidence of the window and the recorded clean streak. -/
def recoveryDue (g : Governor) (bundle : EvidenceBundle) : Prop :=
  let recovery := g.config.policy.recovery
  let metrics := computeMetrics bundle g.config.policy
  metrics.oversubscriptionBp.value ≤ recovery.relaxOversubscriptionBp ∧
    metrics.queuePressureBp.value ≤ recovery.relaxQueuePressureBp ∧
    metrics.dropEvents ≤ recovery.maxDropsDuringRecovery ∧
    recovery.requiredCleanWindows ≤
      min (g.state.cleanStreak + 1) g.config.policy.hysteresis.maxCleanWindows ∧
    (recovery.requireCapacityRevalidation = true → bundle.capacityStamp.state = .present)

/-- An accepted, unfenced Recovery window meets an active live intent under an enabled
recovery policy before the criteria hold. -/
def recoversEarly (g : Governor) (bundle : EvidenceBundle) : Prop :=
  g.accepts bundle ∧ g.liveFence bundle = none ∧
    (g.windowClassification bundle).kind = .recovery ∧ g.config.policy.recovery.enabled = true ∧
    (∃ view, g.liveView = some view ∧ view.live.intent.active) ∧ ¬g.recoveryDue bundle

/-! ### The verdict of a Recovery window -/

theorem instantaneous_of_recovery (h : g.accepts bundle)
    (hk : (g.windowClassification bundle).kind = .recovery) :
    ¬(g.windowClassification bundle).instantaneousKind.incident := by
  have hg := (authorityGranted_of_accepts h).withoutSequences
  have hne : (g.classified bundle).instantaneousKind ≠ .recovery := by
    rw [classified, classify_instantaneousKind hg]
    exact classifyInstantaneous_ne_recovery _ _ _
  rw [(windowClassification_fields g bundle).1]
  have hkind := (classify_kind hg : (g.classified bundle).kind = _ ∧ _)
  rw [windowClassification_eq] at hk
  split_ifs at hk with hover
  · -- the override replaced a kind that hysteresis did not hold
    have hsame : (g.classified bundle).kind = (g.classified bundle).instantaneousKind := by
      rcases applyHysteresis_cases g.config.policy g.classificationContext
        (g.classified bundle).instantaneousKind with hc | hc
      · exact hkind.1.trans hc.1
      · have hheld : (g.classified bundle).hysteresisHeld = true := hkind.2.trans hc.1
        exact absurd hheld hover.2.2.1
    rw [← hsame]
    exact hover.2.2.2
  · have hrank := applyHysteresis_recovery hne (hkind.1.symm.trans hk)
    intro hinc
    rcases hinc with hinc | hinc <;> rw [hinc] at hrank <;> simp [IncidentKind.rank] at hrank

theorem countedState_recovery (h : ¬(g.windowClassification bundle).instantaneousKind.incident)
    (hv : (g.liveView).isSome) :
    (g.countedState bundle).recovery =
      g.trackedRecovery bundle
        (min (g.state.cleanStreak + 1) g.config.policy.hysteresis.maxCleanWindows) := by
  simp only [countedState, if_neg h, if_pos hv]
  rfl

/-- The verdict relaxes exactly when recovery is enabled and due. -/
theorem windowVerdict_relax_iff (h : g.accepts bundle) (hv : (g.liveView).isSome)
    (hk : (g.windowClassification bundle).kind = .recovery) :
    (g.windowVerdict bundle).relax = true ↔
      g.config.policy.recovery.enabled = true ∧ g.recoveryDue bundle := by
  have hm : (g.windowClassification bundle).metrics = _ :=
    (windowClassification_fields g bundle).2.2.1.trans classify_metrics
  unfold windowVerdict recoveryDue
  rw [evaluateRecovery_relax, countedState_recovery (instantaneous_of_recovery h hk) hv, hm]
  simp only [trackedRecovery, decide_eq_true_eq]

/-! ### What a Recovery window does -/

/-- A decision relaxes exactly in an accepted, unfenced Recovery window whose synthesis
is authorized and that finds a live intervention. -/
theorem relaxesIntervention_iff :
    relaxesIntervention (g.evaluate bundle).1 ↔
      g.accepts bundle ∧ g.liveFence bundle = none ∧
        (g.windowClassification bundle).kind = .recovery ∧ (g.liveView).isSome ∧
        (g.synthesis bundle).authority.interventionAuthorized = true := by
  rcases evaluate_cases g bundle with ⟨hn, decision, reason, detail, he⟩ |
    ⟨_, view, denial, _, hf, he⟩ | ⟨h, hf, he⟩
  · simp [relaxesIntervention, he, hn]
  · simp [relaxesIntervention, he, hf]
  · have hlive : (g.liveView).isSome = (g.liveRecord bundle).isSome := by
      rw [liveRecord_of_unfenced hf, Option.isSome_map]
    rw [he, relaxesIntervention, commit_outcome, commit_kind, effectDecision_kind, hlive]
    have hby := effect_by g bundle
    generalize g.effect bundle = effect at hby
    cases hby with
    | hold live hl hh =>
      have hk : (g.windowClassification bundle).kind ≠ .recovery :=
        fun hk => not_holds_of_recovery hk hh
      simp [effectDecision, heldDecision, hk]
    | issue hl ha =>
      have hk : (g.windowClassification bundle).kind ≠ .recovery :=
        fun hk => not_actsOnIncident_of_recovery hk ha
      simp [effectDecision, hk]
    | carryOn live hl hh ha =>
      have hk : (g.windowClassification bundle).kind ≠ .recovery :=
        fun hk => not_actsOnIncident_of_recovery hk ha
      simp [effectDecision, hk]
    | recover live hl hk ha hi => simp [effectDecision, h, hf, hk, hl, ha]
    | relax live hl hk ha hi => simp [effectDecision, h, hf, hk, hl, ha]
    | retireUnfounded live hl hk hn hs => simp [effectDecision, hk]
    | keep live hl _ ha hr =>
      simp only [effectDecision]
      constructor
      · rintro (hc | hc) <;> simp at hc
      · rintro ⟨_, _, hk, _, hz⟩
        rw [hr hk] at hz
        contradiction
    | idle hl ha => simp [effectDecision, hl]

/-- A Recovery window that authorizes nothing keeps the live record. -/
theorem keeps_live_of_unauthorized (hinv : tableBounded g) (h : g.accepts bundle)
    (hf : g.liveFence bundle = none) {view : LiveView} (hv : g.liveView = some view)
    (hk : (g.windowClassification bundle).kind = .recovery)
    (ha : (g.synthesis bundle).authority.interventionAuthorized = false) :
    (g.evaluate bundle).2.state.interventions = g.state.interventions := by
  rw [evaluate_committed h hf, commit_interventions, effectState_interventions]
  have hl := liveRecord_of_view hf hv
  have hput : g.putLive view.live = g.state.interventions := by
    rw [putLive_eq hv, ← (liveView_splits hv).table]
  have hby := effect_by g bundle
  generalize g.effect bundle = effect at hby
  cases hby with
  | hold live _ hh => exact absurd hh (not_holds_of_recovery hk)
  | issue _ hact => exact absurd hact (not_actsOnIncident_of_recovery hk)
  | carryOn live _ _ hact => exact absurd hact (not_actsOnIncident_of_recovery hk)
  | recover live _ _ hz _ =>
    rw [ha] at hz
    contradiction
  | relax live _ _ hz _ =>
    rw [ha] at hz
    contradiction
  | retireUnfounded live _ hne _ _ => exact absurd hk hne
  | keep live hl' _ _ _ =>
    rw [hl] at hl'
    rw [← Option.some.inj hl']
    simp only [hput]
    exact trimInterventions_of_length_le hinv
  | idle hl' _ =>
    rw [hl] at hl'
    contradiction

/-- One evaluation relaxes under its verdict exactly when it does not recover early. -/
theorem relaxesUnderVerdict_iff (hinv : tableBounded g) :
    g.relaxesUnderVerdict bundle ↔ ¬g.recoversEarly bundle := by
  constructor
  · rintro ⟨hrelax, _⟩ ⟨h, hf, hk, he, ⟨view, hv, ha⟩, hdue⟩
    have hsome : (g.liveView).isSome := by simp [hv]
    have hl := liveRecord_of_view hf hv
    have hz := (synthesis_recovery_authorized_iff h hk).mpr ⟨he, view.live, hl, ha⟩
    have hverdict := hrelax (relaxesIntervention_iff.mpr ⟨h, hf, hk, hsome, hz⟩)
    exact hdue ((windowVerdict_relax_iff h hsome hk).mp hverdict).2
  · intro hearly
    have hdue : ∀ view, g.accepts bundle → g.liveFence bundle = none → g.liveView = some view →
        (g.windowClassification bundle).kind = .recovery →
        (g.synthesis bundle).authority.interventionAuthorized = true →
        (g.windowVerdict bundle).relax = true := by
      intro view h hf hv hk hz
      obtain ⟨he, live, hl, ha⟩ := (synthesis_recovery_authorized_iff h hk).mp hz
      obtain rfl := Option.some.inj ((liveRecord_of_view hf hv).symm.trans hl)
      rw [windowVerdict_relax_iff h (by simp [hv]) hk]
      refine ⟨he, ?_⟩
      by_contra hnot
      exact hearly ⟨h, hf, hk, he, ⟨view, hv, ha⟩, hnot⟩
    refine ⟨fun hrelax => ?_, fun view h hf hv hk hverdict => ?_⟩
    · obtain ⟨h, hf, hk, hsome, hz⟩ := relaxesIntervention_iff.mp hrelax
      obtain ⟨view, hv⟩ := Option.isSome_iff_exists.mp hsome
      exact hdue view h hf hv hk hz
    · have hz : (g.synthesis bundle).authority.interventionAuthorized = false := by
        by_contra hz
        rw [hdue view h hf hv hk (by simpa using hz)] at hverdict
        contradiction
      rw [keeps_live_of_unauthorized hinv h hf hv hk hz]
      exact ⟨view.live, getElem?_live hv, rfl, rfl⟩

/-- Over a run: every evaluation relaxes under its verdict exactly when none of them
recovers early. -/
theorem run_relaxes_under_verdict_iff (config : GovernorConfig) (operations : List Operation) :
    (∀ call ∈ calls config operations, ∀ bundle, call.2 = .evaluate bundle →
        call.1.relaxesUnderVerdict bundle) ↔
      ∀ call ∈ calls config operations, ∀ bundle, call.2 = .evaluate bundle →
        ¬call.1.recoversEarly bundle := by
  constructor
  · intro h call hcall bundle hb
    exact (relaxesUnderVerdict_iff (tableBounded_of_mem_calls hcall)).mp (h call hcall bundle hb)
  · intro h call hcall bundle hb
    exact (relaxesUnderVerdict_iff (tableBounded_of_mem_calls hcall)).mpr (h call hcall bundle hb)

/-- One incident window and two calm ones: the third window is stepped down to Recovery
after two clean windows where the policy asks for three. -/
def earlyRecoveryRun : List Operation :=
  [.evaluate incidentWindow, .evaluate (calmWindow 2 2000000000),
    .evaluate (calmWindow 3 3000000000)]

/-- The governor the last window of that run meets. -/
def beforeRecovery : Governor :=
  Foundation.run step (create sampleConfig)
    [.evaluate incidentWindow, .evaluate (calmWindow 2 2000000000)]

/-- The third window of that run relaxes although its verdict forbids it. -/
theorem earlyRecoveryRun_relaxes_without_verdict :
    sampleConfig.policy.validate = .ok () ∧
      ¬∀ call ∈ calls sampleConfig earlyRecoveryRun, ∀ bundle, call.2 = .evaluate bundle →
        call.1.relaxesUnderVerdict bundle := by
  refine ⟨by decide +kernel, fun h => ?_⟩
  have hmem : (beforeRecovery, Operation.evaluate (calmWindow 3 3000000000)) ∈
      calls sampleConfig earlyRecoveryRun :=
    (Foundation.mem_calls_iff step).mpr
      ⟨[.evaluate incidentWindow, .evaluate (calmWindow 2 2000000000)], [], rfl, rfl⟩
  have hrelaxed :
      (beforeRecovery.evaluate (calmWindow 3 3000000000)).1.outcome = .interventionRelaxed := by
    decide +kernel
  have hverdict : (beforeRecovery.windowVerdict (calmWindow 3 3000000000)).relax = false := by
    decide +kernel
  have hunder : beforeRecovery.relaxesUnderVerdict (calmWindow 3 3000000000) := h _ hmem _ rfl
  have hrelax := hunder.1 (Or.inl hrelaxed)
  rw [hverdict] at hrelax
  exact Bool.false_ne_true hrelax

end Governor

end IncastGovernor
