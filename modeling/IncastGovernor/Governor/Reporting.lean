import IncastGovernor.Governor.Recovery

/-! The refusal a decision reports. The vector of a decision starts from a refusal that
is not None; every exit of an evaluation overwrites it except the two that authorize a
recovery, which leave the default behind in an authorized decision. -/

namespace IncastGovernor

/-! ### The refusal of each exit of a synthesis -/

section Exits

variable {request : SynthesisRequest} {bundle : EvidenceBundle} {policy : GovernorPolicy}
  {classification : Classification} {intent : MitigationIntent} {authority : AuthorityVector}

/-- An authorized recovery keeps the refusal it started from. -/
theorem synthesizeRecovery_refusal_of_authorized
    (h : (synthesizeRecovery request bundle policy intent
      authority).authority.interventionAuthorized = true) :
    (synthesizeRecovery request bundle policy intent authority).authority.refusal =
      authority.refusal := by
  obtain ⟨he, prior, hp, ha⟩ := synthesizeRecovery_authorized_iff.mp h
  unfold synthesizeRecovery
  rw [if_neg (not_not.mpr he), hp]
  simp only [Option.filter, ha, decide_true, if_true]
  split_ifs <;> rfl

theorem synthesizeRecovery_refusal_of_unauthorized
    (h : (synthesizeRecovery request bundle policy intent
      authority).authority.interventionAuthorized = false) :
    (synthesizeRecovery request bundle policy intent authority).authority.refusal ≠ .none := by
  unfold synthesizeRecovery at h ⊢
  by_cases he : policy.recovery.enabled
  · rw [if_neg (not_not.mpr he)] at h ⊢
    cases hp : request.prior.filter fun prior => prior.active with
    | none => simp
    | some prior =>
      rw [hp] at h
      simp only at h
      split_ifs at h
  · rw [if_pos he]
    simp

theorem synthesizeIncident_refusal_iff :
    (synthesizeIncident request bundle policy classification intent
        authority).authority.interventionAuthorized = true ↔
      (synthesizeIncident request bundle policy classification intent authority).authority.refusal =
        .none := by
  cases hs : sizeAction policy classification with
  | none =>
    rw [(synthesizeIncident_none hs).1, (synthesizeIncident_none hs).2.1]
    simp
  | some action =>
    by_cases hc : actionRefused bundle policy classification action
    · have hr : (synthesizeIncident request bundle policy classification intent
          authority).authority.refusal = .protectedFloorConflict := by
        have hcond : residualDemand (requiredReduction policy classification) action.achievable > 0 ∧
            floorConflict classification.metrics
              (sizedIntent request bundle policy classification action) ∧
            ¬policy.protection.escalateInsteadOfViolatingFloor := hc
        simp only [synthesizeIncident, hs]
        rw [if_pos hcond]
      rw [(synthesizeIncident_refused hs hc).1, hr]
      simp
    · rw [(synthesizeIncident_authorized hs hc).1, (synthesizeIncident_authorized hs hc).2.1]
      simp

/-- Outside recovery a synthesis authorizes exactly when it names no refusal. -/
theorem synthesizeWindow_refusal_iff (hk : classification.kind ≠ .recovery) :
    (synthesizeWindow request bundle policy classification).authority.interventionAuthorized =
        true ↔
      (synthesizeWindow request bundle policy classification).authority.refusal = .none := by
  unfold synthesizeWindow
  by_cases hr : request.check.reason = .none
  · by_cases he : policy.enabled
    · cases hkind : classification.kind with
      | recovery => exact absurd hkind hk
      | synchronizedIncastRisk => simpa [hr, he] using synthesizeIncident_refusal_iff
      | activeIncast => simpa [hr, he] using synthesizeIncident_refusal_iff
      | unknown =>
        simp only [hr, he, ne_eq, not_true_eq_false, if_false, refuse_authorized, refuse_refusal]
        split_ifs with hn
        · simp
        · simp [hn]
      | noFanIn => simp [hr, he]
      | ordinaryManyToOne => simp [hr, he]
    · simp [hr, he]
  · simp [hr]

end Exits

namespace Governor

variable {g : Governor} {bundle : EvidenceBundle}

/-- The vector names no refusal exactly when it authorizes, and the decision repeats it. -/
def reportsConsistently (decision : Decision) : Prop :=
  (decision.authority.interventionAuthorized = true ↔ decision.authority.refusal = .none) ∧
    decision.refusal = decision.authority.refusal

instance (decision : Decision) : Decidable (reportsConsistently decision) := by
  delta reportsConsistently; infer_instance

/-- An accepted, unfenced Recovery window meets an active live intent under an enabled
recovery policy. -/
def recoversLive (g : Governor) (bundle : EvidenceBundle) : Prop :=
  g.accepts bundle ∧ g.liveFence bundle = none ∧
    (g.windowClassification bundle).kind = .recovery ∧ g.config.policy.recovery.enabled = true ∧
    ∃ view, g.liveView = some view ∧ view.live.intent.active

/-! ### The refusals of the early exits -/

/-- A check that denies names its reason. -/
def namesReason (check : Option (RefusalReason × Text)) : Prop :=
  ∀ denial, check = some denial → denial.1 ≠ .none

theorem namesReason_none : namesReason none := fun _ h => by cases h

theorem namesReason_ite {p : Prop} [Decidable p] {reason : RefusalReason} {detail : Text}
    {rest : Option (RefusalReason × Text)} (hr : reason ≠ .none) (hrest : namesReason rest) :
    namesReason (if p then some (reason, detail) else rest) := by
  intro denial h
  split_ifs at h
  · rw [← Option.some.inj h]
    exact hr
  · exact hrest denial h

theorem bindingRefusal_reason (g : Governor) (bundle : EvidenceBundle) :
    namesReason (g.bindingRefusal bundle) := by
  unfold bindingRefusal
  repeat refine namesReason_ite (by decide) ?_
  exact namesReason_none

theorem isFenced_reason (live : Intervention) (context : FenceContext) :
    namesReason (isFenced live context) := by
  unfold isFenced
  repeat refine namesReason_ite (by decide) ?_
  exact namesReason_none

theorem liveFence_reason {denial : RefusalReason × Text}
    (h : g.liveFence bundle = some denial) : denial.1 ≠ .none := by
  obtain ⟨view, _, hf⟩ := Option.bind_eq_some_iff.mp h
  exact isFenced_reason _ _ denial hf

theorem refuse_reports (decision : Decision) {reason : RefusalReason} (detail : Text)
    (h : reason ≠ .none) : reportsConsistently (g.refuse decision reason detail).1 := by
  refine ⟨?_, rfl⟩
  show false = true ↔ reason = .none
  simp [h]

theorem fence_reports (view : LiveView) {reason : RefusalReason} (detail : Text)
    (h : reason ≠ .none) : reportsConsistently (g.fence bundle view reason detail).1 := by
  refine ⟨?_, rfl⟩
  show false = true ↔ reason = .none
  simp [h]

theorem evaluate_reports_of_refused (h : ¬g.accepts bundle) :
    reportsConsistently (g.evaluate bundle).1 := by
  unfold evaluate
  cases hb : g.bindingRefusal bundle with
  | some denial => exact refuse_reports _ denial.2 (bindingRefusal_reason g bundle denial hb)
  | none =>
    have hr : (g.authorityCheck bundle).reason ≠ .none := fun hr => h ⟨hb, hr⟩
    simp only [ne_eq, hr, not_false_eq_true, if_true]
    exact refuse_reports _ _ hr

/-! ### The effects -/

theorem commit_reports (effect : Effect) :
    reportsConsistently (g.commit bundle effect).1 ↔
      reportsConsistently (g.effectDecision bundle effect) := Iff.rfl

/-- Outside recovery the synthesis of a window authorizes exactly when it names no refusal. -/
theorem synthesis_refusal_iff (hk : (g.windowClassification bundle).kind ≠ .recovery) :
    (g.synthesis bundle).authority.interventionAuthorized = true ↔
      (g.synthesis bundle).authority.refusal = .none := by
  unfold synthesis
  rw [synthesize_complete rfl rfl rfl]
  exact synthesizeWindow_refusal_iff hk

theorem synthesis_refusal_of_recovery (h : g.accepts bundle)
    (hk : (g.windowClassification bundle).kind = .recovery) :
    ((g.synthesis bundle).authority.interventionAuthorized = true →
        (g.synthesis bundle).authority.refusal = .missingEvidence) ∧
      ((g.synthesis bundle).authority.interventionAuthorized = false →
        (g.synthesis bundle).authority.refusal ≠ .none) := by
  rw [synthesis_of_recovery h hk]
  exact ⟨synthesizeRecovery_refusal_of_authorized, synthesizeRecovery_refusal_of_unauthorized⟩

/-- A decision that carries the synthesis' refusal. -/
theorem reports_of_unauthorized (h : g.accepts bundle) {decision : Decision}
    (ha : (g.synthesis bundle).authority.interventionAuthorized = false)
    (hvector : decision.authority.interventionAuthorized =
        (g.synthesis bundle).authority.interventionAuthorized ∧
      decision.authority.refusal = (g.synthesis bundle).authority.refusal)
    (hr : decision.refusal = (g.synthesis bundle).authority.refusal) :
    reportsConsistently decision := by
  have hne : (g.synthesis bundle).authority.refusal ≠ .none := by
    by_cases hk : (g.windowClassification bundle).kind = .recovery
    · exact (synthesis_refusal_of_recovery h hk).2 ha
    · intro hn
      rw [(synthesis_refusal_iff hk).mpr hn] at ha
      contradiction
  refine ⟨?_, hr.trans hvector.2.symm⟩
  rw [hvector.1, hvector.2, ha]
  simp [hne]

/-- A recovery leaves the default of the vector behind. -/
theorem not_reports_of_recovery (h : g.accepts bundle)
    (hk : (g.windowClassification bundle).kind = .recovery) {decision : Decision}
    (ha : (g.synthesis bundle).authority.interventionAuthorized = true)
    (hvector : decision.authority.interventionAuthorized =
        (g.synthesis bundle).authority.interventionAuthorized ∧
      decision.authority.refusal = (g.synthesis bundle).authority.refusal) :
    ¬reportsConsistently decision := by
  intro hc
  have hnone := hc.1.mp (hvector.1.trans ha)
  rw [hvector.2, (synthesis_refusal_of_recovery h hk).1 ha] at hnone
  contradiction

/-- An action on an incident names no refusal. -/
theorem synthesis_refusal_of_acts (ha : g.actsOnIncident bundle) :
    (g.synthesis bundle).authority.refusal = .none := by
  have hk : (g.windowClassification bundle).kind ≠ .recovery :=
    fun hk => not_actsOnIncident_of_recovery hk ha
  exact (synthesis_refusal_iff hk).mp ha.2.1

theorem recoversLive_iff (h : g.accepts bundle) (hf : g.liveFence bundle = none)
    (hk : (g.windowClassification bundle).kind = .recovery) :
    g.recoversLive bundle ↔ (g.synthesis bundle).authority.interventionAuthorized = true := by
  rw [synthesis_recovery_authorized_iff h hk, liveRecord_of_unfenced hf]
  simp [recoversLive, h, hf, hk]

/-- The decision of one evaluation is consistent exactly when the window does not recover a live
intervention. -/
theorem evaluate_reports_iff :
    reportsConsistently (g.evaluate bundle).1 ↔ ¬g.recoversLive bundle := by
  rcases evaluate_cases g bundle with ⟨hn, _⟩ | ⟨_, view, denial, _, hf, he⟩ | ⟨h, hf, he⟩
  · exact iff_of_true (evaluate_reports_of_refused hn) fun hr => hn hr.1
  · rw [he]
    refine iff_of_true (fence_reports view denial.2 (liveFence_reason hf)) fun hr => ?_
    rw [hr.2.1] at hf
    contradiction
  · rw [he, commit_reports]
    have hby := effect_by g bundle
    generalize g.effect bundle = effect at hby
    cases hby with
    | hold live hl hh =>
      refine iff_of_true ⟨iff_of_true rfl rfl, rfl⟩ fun hr => ?_
      exact not_holds_of_recovery hr.2.2.1 hh
    | issue hl ha =>
      have hnone := synthesis_refusal_of_acts ha
      refine iff_of_true ⟨iff_of_true ha.2.1 hnone, hnone.symm⟩ fun hr => ?_
      exact not_actsOnIncident_of_recovery hr.2.2.1 ha
    | carryOn live hl hh ha =>
      have hnone := synthesis_refusal_of_acts ha
      refine iff_of_true ⟨iff_of_true ha.2.1 hnone, hnone.symm⟩ fun hr => ?_
      exact not_actsOnIncident_of_recovery hr.2.2.1 ha
    | recover live hl hk ha hi =>
      refine iff_of_false (not_reports_of_recovery h hk ha ⟨rfl, rfl⟩) fun hr => ?_
      exact hr ((recoversLive_iff h hf hk).mpr ha)
    | relax live hl hk ha hi =>
      refine iff_of_false (not_reports_of_recovery h hk ha ⟨rfl, rfl⟩) fun hr => ?_
      exact hr ((recoversLive_iff h hf hk).mpr ha)
    | retireUnfounded live hl hk hn hs =>
      have ha := synthesis_unauthorized h (fun ha => hn ha.1) fun hr => absurd hr hk
      exact iff_of_true (reports_of_unauthorized h ha ⟨rfl, rfl⟩ rfl) fun hr => hk hr.2.2.1
    | keep live hl _ hn hr =>
      have ha := synthesis_unauthorized h hn hr
      refine iff_of_true (reports_of_unauthorized h ha ⟨rfl, rfl⟩ rfl) fun hc => ?_
      rw [(recoversLive_iff h hf hc.2.2.1).mp hc] at ha
      contradiction
    | idle hl hn =>
      have ha := synthesis_unauthorized h hn (synthesis_idle_recovery h hl)
      refine iff_of_true (reports_of_unauthorized h ha ⟨rfl, rfl⟩ rfl) fun hc => ?_
      rw [(recoversLive_iff h hf hc.2.2.1).mp hc] at ha
      contradiction

/-- Over a run: every decision is consistent exactly when no window recovers a live
intervention. -/
theorem run_reports_iff (config : GovernorConfig) (operations : List Operation) :
    (∀ call ∈ calls config operations, ∀ bundle, call.2 = .evaluate bundle →
        reportsConsistently (call.1.evaluate bundle).1) ↔
      ∀ call ∈ calls config operations, ∀ bundle, call.2 = .evaluate bundle →
        ¬call.1.recoversLive bundle := by
  simp only [evaluate_reports_iff]

/-- The third window of that run relaxes under authority and names a missing evidence. -/
theorem earlyRecoveryRun_reports_missing_evidence :
    ¬∀ call ∈ calls sampleConfig earlyRecoveryRun, ∀ bundle, call.2 = .evaluate bundle →
        reportsConsistently (call.1.evaluate bundle).1 := by
  intro h
  have hmem : (beforeRecovery, Operation.evaluate (calmWindow 3 3000000000)) ∈
      calls sampleConfig earlyRecoveryRun :=
    (Foundation.mem_calls_iff step).mpr
      ⟨[.evaluate incidentWindow, .evaluate (calmWindow 2 2000000000)], [], rfl, rfl⟩
  have hreports := h _ hmem _ rfl
  have hfails :
      ¬reportsConsistently (beforeRecovery.evaluate (calmWindow 3 3000000000)).1 := by
    decide +kernel
  exact hfails hreports

end Governor

end IncastGovernor
