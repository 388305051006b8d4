import IncastGovernor.Governor.Window

/-! The penalized list of an authorized decision. A fresh synthesis chooses the list from
this window's contributions; a hysteresis hold and a recovery step publish the list of
an earlier window. A fresh list is legal up to rows that carry no incarnation, which the
collision detector skips; a republished list is legal when it still is for this window. -/

namespace IncastGovernor

/-- No target belongs to a sender the bundle shows as protected or collided, and a
saturated population has no targets where the policy refuses sender scope. -/
def targetsLegal (policy : GovernorPolicy) (bundle : EvidenceBundle)
    (targets : List SenderIdentity) : Prop :=
  (∀ identity ∈ targets,
    (∀ row ∈ bundle.senders, row.identity.sender = identity.sender →
      ¬isProtectedSender row policy) ∧
    identity.sender ∉ (detectCollisions bundle).map fun c => c.sender) ∧
  ((computeMetrics bundle policy).populationSaturated = true →
    policy.protection.refuseSenderScopeWhenPopulationSaturated = true → targets = [])

instance (policy : GovernorPolicy) (bundle : EvidenceBundle) (targets : List SenderIdentity) :
    Decidable (targetsLegal policy bundle targets) := by
  delta targetsLegal; infer_instance

theorem targetsLegal_nil (policy : GovernorPolicy) (bundle : EvidenceBundle) :
    targetsLegal policy bundle [] := by
  simp [targetsLegal]

namespace Governor

variable {g : Governor} {bundle : EvidenceBundle}

/-- An authorized decision publishes legal targets. -/
def publishesLegalTargets (g : Governor) (bundle : EvidenceBundle) : Prop :=
  (g.evaluate bundle).1.authorized →
    targetsLegal g.config.policy bundle (g.evaluate bundle).1.intent.penalizedSenders

/-- A hysteresis hold republishes targets that this window does not allow. -/
def holdsIllegalTargets (g : Governor) (bundle : EvidenceBundle) : Prop :=
  ∃ view, g.liveView = some view ∧ holds (g.windowClassification bundle) view.live ∧
    ¬targetsLegal g.config.policy bundle view.live.intent.penalizedSenders

/-- A recovery step that does not complete republishes targets that this window does
not allow. -/
def relaxesIllegalTargets (g : Governor) (bundle : EvidenceBundle) : Prop :=
  (g.windowClassification bundle).kind = .recovery ∧ g.config.policy.recovery.enabled = true ∧
    ∃ view, g.liveView = some view ∧ view.live.intent.active ∧
      ¬recoveryCompletes g.config.policy.bounds
        (recoveryStep g.config.policy.bounds (BasisPoints.of 0) view.live.intent)
        view.live.intent ∧
      ¬targetsLegal g.config.policy bundle
        (view.live.intent.penalizedSenders.take g.config.policy.bounds.maxPenalizedSenders.toNat)

/-- A fresh sender-scoped action selects a sender that also has a protected row without
an incarnation. -/
def selectsUnboundProtected (g : Governor) (bundle : EvidenceBundle) : Prop :=
  let classification := g.windowClassification bundle
  let selected := selectedContributions g.config.policy classification
  classification.kind.incident ∧ actionAvailable bundle g.config.policy classification ∧
    (∀ view, g.liveView = some view → ¬holds classification view.live) ∧
    requiredReduction g.config.policy classification ≠ 0 ∧ mitigableOffer selected > 0 ∧
    ∃ c ∈ selected, ∃ row ∈ bundle.senders, row.identity.sender = c.identity.sender ∧
      ¬row.identity.incarnation.valid ∧ isProtectedSender row g.config.policy

/-- One of the three ways to illegal targets. -/
def illegalTargets (g : Governor) (bundle : EvidenceBundle) : Prop :=
  g.holdsIllegalTargets bundle ∨ g.relaxesIllegalTargets bundle ∨ g.selectsUnboundProtected bundle

/-- An accepted, unfenced window takes one of them. -/
def publishesIllegalTargets (g : Governor) (bundle : EvidenceBundle) : Prop :=
  g.accepts bundle ∧ g.liveFence bundle = none ∧ g.illegalTargets bundle

/-! ### A fresh selection -/

theorem windowClassification_contributions (h : g.accepts bundle) :
    (g.windowClassification bundle).contributions =
      rankContributions bundle g.config.policy (g.windowClassification bundle).metrics
        (g.windowClassification bundle).synchronization (detectCollisions bundle) := by
  obtain ⟨_, hs, hm, hc, _⟩ := windowClassification_fields g bundle
  rw [hs, hm, hc]
  exact classify_contributions (authorityGranted_of_accepts h).withoutSequences

theorem windowClassification_saturated :
    (g.windowClassification bundle).metrics.populationSaturated =
      (computeMetrics bundle g.config.policy).populationSaturated := by
  rw [(windowClassification_fields g bundle).2.2.1, classified, classify_metrics]

/-- A selected contributor is a counted row, unprotected and uncollided. -/
theorem exists_row_of_selected (h : g.accepts bundle) {c : SenderContribution}
    (hc : c ∈ selectedContributions g.config.policy (g.windowClassification bundle)) :
    ∃ row ∈ countedRows bundle, c.identity = row.identity ∧
      ¬isProtectedSender row g.config.policy ∧
      row.identity.sender ∉ (detectCollisions bundle).map fun c => c.sender := by
  obtain ⟨hmem, hmit, _⟩ := mem_selectedContributions hc
  rw [windowClassification_contributions h] at hmem
  obtain ⟨row, hrow, rfl⟩ := exists_row_of_mem_rankContributions hmem
  obtain ⟨_, hp, hcoll⟩ := contributionOf_mitigable hmit
  exact ⟨row, hrow, rfl, hp, hcoll⟩

/-- A fresh selection is legal up to protected rows without an incarnation. -/
theorem selected_legal_iff (h : g.accepts bundle) :
    targetsLegal g.config.policy bundle
        ((selectedContributions g.config.policy (g.windowClassification bundle)).map
          fun c => c.identity) ↔
      ¬∃ c ∈ selectedContributions g.config.policy (g.windowClassification bundle),
        ∃ row ∈ bundle.senders, row.identity.sender = c.identity.sender ∧
          ¬row.identity.incarnation.valid ∧ isProtectedSender row g.config.policy := by
  have hstruct := (authorityGranted_of_accepts h).structural
  constructor
  · rintro ⟨hlegal, _⟩ ⟨c, hc, row, hrow, hs, _, hp⟩
    exact (hlegal c.identity (List.mem_map_of_mem hc)).1 row hrow hs hp
  · intro hunbound
    refine ⟨fun identity hid => ?_, fun hsat hrefuse => ?_⟩
    · obtain ⟨c, hc, rfl⟩ := List.mem_map.mp hid
      obtain ⟨own, hown, hident, hunprot, hcoll⟩ := exists_row_of_selected h hc
      rw [hident]
      refine ⟨fun row hrow hs hp => ?_, hcoll⟩
      by_cases hinc : row.identity.incarnation.valid
      · have hsender : row.identity.sender.valid := by
          rw [hs]
          exact ((mem_countedRows hstruct).mp hown).2.1
        have hcounted : row ∈ countedRows bundle :=
          (mem_countedRows hstruct).mpr ⟨hrow, hsender, hinc⟩
        exact hunprot
          ((isProtectedSender_congr_of_not_collided hown hcounted hs.symm hcoll).mpr hp)
      · exact hunbound ⟨c, hc, row, hrow, by rw [hs, hident], hinc, hp⟩
    · have hscope : ¬senderScopeAllowed g.config.policy (g.windowClassification bundle) := by
        intro hallowed
        apply hallowed
        rw [windowClassification_saturated]
        exact ⟨hsat, hrefuse⟩
      rw [selectedContributions, if_neg hscope]
      rfl

/-! ### The published list -/

theorem penalizedSenders_of_act (h : g.accepts bundle) (ha : g.actsOnIncident bundle) :
    (g.synthesis bundle).intent.penalizedSenders =
      if requiredReduction g.config.policy (g.windowClassification bundle) ≠ 0 ∧
          mitigableOffer (selectedContributions g.config.policy
            (g.windowClassification bundle)) > 0 then
        (selectedContributions g.config.policy (g.windowClassification bundle)).map
          fun c => c.identity
      else [] := by
  obtain ⟨hk, action, hs, hr⟩ := (actsOnIncident_iff h).mp ha
  rw [synthesis_of_incident h hk, (synthesizeIncident_authorized hs hr).2.2,
    actionIntent_penalizedSenders hs, sizeAction_penalizedSenders hs]

/-- The list of a window that acts on an incident is legal exactly when it selects no
unbound protected sender. -/
theorem acted_legal_iff (h : g.accepts bundle) (ha : g.actsOnIncident bundle)
    (hh : ∀ view, g.liveView = some view → ¬holds (g.windowClassification bundle) view.live) :
    targetsLegal g.config.policy bundle (g.synthesis bundle).intent.penalizedSenders ↔
      ¬g.selectsUnboundProtected bundle := by
  obtain ⟨hk, hact⟩ := (actsOnIncident_iff h).mp ha
  rw [penalizedSenders_of_act h ha]
  split_ifs with hscope
  · rw [selected_legal_iff h]
    constructor
    · rintro hnone ⟨_, _, _, _, _, hex⟩
      exact hnone hex
    · intro hnone hex
      exact hnone ⟨hk, hact, hh, hscope.1, hscope.2, hex⟩
  · refine ⟨fun _ hsel => hscope ⟨hsel.2.2.2.1, hsel.2.2.2.2.1⟩, fun _ => ?_⟩
    exact targetsLegal_nil _ _

/-- The step the governor asks for is always the policy's own. -/
theorem recoveryVerdict_stepBp (g : Governor) (bundle : EvidenceBundle) :
    (g.recoveryVerdict bundle).stepBp = {} ∨
      (g.recoveryVerdict bundle).stepBp = BasisPoints.of 0 := by
  unfold recoveryVerdict evaluateRecovery
  split_ifs <;> simp

theorem recoveryStep_of_request (bounds : MitigationBounds) (prior : MitigationIntent) :
    recoveryStep bounds (g.recoveryVerdict bundle).stepBp prior =
      recoveryStep bounds (BasisPoints.of 0) prior := by
  have hzero : (BasisPoints.of 0).value = 0 := by decide
  have hdefault : ({} : BasisPoints).value = 0 := rfl
  rcases recoveryVerdict_stepBp g bundle with hs | hs
  · simp only [recoveryStep, hs, hzero, hdefault]
  · rw [hs]

theorem synthesisRequest_prior (hf : g.liveFence bundle = none) {view : LiveView}
    (hv : g.liveView = some view) :
    (g.synthesisRequest bundle).prior = some view.live.intent := by
  simp only [synthesisRequest, liveRecord_of_unfenced hf, hv]
  rfl

theorem recoverySynthesis_intent (h : g.accepts bundle) (hf : g.liveFence bundle = none)
    (hk : (g.windowClassification bundle).kind = .recovery)
    (he : g.config.policy.recovery.enabled = true) {view : LiveView}
    (hv : g.liveView = some view) (ha : view.live.intent.active) :
    (g.synthesis bundle).intent =
      let bounds := g.config.policy.bounds
      let step := recoveryStep bounds (BasisPoints.of 0) view.live.intent
      if recoveryCompletes bounds step view.live.intent then
        retiredIntent bounds ((g.synthesisRequest bundle).issueInstant bundle) view.live.intent
      else
        relaxedIntent bounds ((g.synthesisRequest bundle).issueInstant bundle) step
          view.live.intent := by
  have hprior := synthesisRequest_prior hf hv
  have hstep : recoveryStep g.config.policy.bounds (g.synthesisRequest bundle).recoveryStepBp
      view.live.intent = recoveryStep g.config.policy.bounds (BasisPoints.of 0) view.live.intent :=
    recoveryStep_of_request _ _
  rw [synthesis_of_recovery h hk, synthesizeRecovery_intent he hprior ha]
  simp only [hstep]

/-! ### The three ways, window by window -/

theorem illegalTargets_of_held {view : LiveView} (hv : g.liveView = some view)
    (hh : holds (g.windowClassification bundle) view.live) :
    g.illegalTargets bundle ↔
      ¬targetsLegal g.config.policy bundle view.live.intent.penalizedSenders := by
  constructor
  · rintro (⟨other, ho, _, hnot⟩ | hrelax | hsel)
    · rw [hv] at ho
      rwa [← Option.some.inj ho] at hnot
    · exact absurd hh (not_holds_of_recovery hrelax.1)
    · exact absurd hh (hsel.2.2.1 view hv)
  · intro hnot
    exact Or.inl ⟨view, hv, hh, hnot⟩

theorem illegalTargets_of_act (h : g.accepts bundle) (ha : g.actsOnIncident bundle)
    (hh : ∀ view, g.liveView = some view → ¬holds (g.windowClassification bundle) view.live) :
    g.illegalTargets bundle ↔
      ¬targetsLegal g.config.policy bundle (g.synthesis bundle).intent.penalizedSenders := by
  rw [acted_legal_iff h ha hh, not_not]
  constructor
  · rintro (⟨view, hv, hheld, _⟩ | hrelax | hsel)
    · exact absurd hheld (hh view hv)
    · exact absurd ha (not_actsOnIncident_of_recovery hrelax.1)
    · exact hsel
  · intro hsel
    exact Or.inr (Or.inr hsel)

/-- In an authorized Recovery window the synthesized list decides. -/
theorem illegalTargets_of_recovery (h : g.accepts bundle) (hf : g.liveFence bundle = none)
    (hk : (g.windowClassification bundle).kind = .recovery)
    (ha : (g.synthesis bundle).authority.interventionAuthorized = true) :
    g.illegalTargets bundle ↔
      ¬targetsLegal g.config.policy bundle (g.synthesis bundle).intent.penalizedSenders := by
  obtain ⟨he, live, hl, hactive⟩ := (synthesis_recovery_authorized_iff h hk).mp ha
  obtain ⟨view, hv, rfl⟩ := view_of_liveRecord hf hl
  rw [recoverySynthesis_intent h hf hk he hv hactive]
  have honly : g.illegalTargets bundle ↔ g.relaxesIllegalTargets bundle := by
    constructor
    · rintro (⟨_, _, hh, _⟩ | hrelax | hsel)
      · exact absurd hh (not_holds_of_recovery hk)
      · exact hrelax
      · exact absurd hsel.1 (not_incident_of_recovery hk)
    · intro hrelax
      exact Or.inr (Or.inl hrelax)
  rw [honly]
  simp only
  split_ifs with hdone
  · constructor
    · rintro ⟨_, _, other, ho, _, hnot, _⟩
      rw [hv] at ho
      rw [← Option.some.inj ho] at hnot
      exact absurd hdone hnot
    · intro hnot
      exact absurd (targetsLegal_nil _ _) hnot
  · rw [relaxedIntent_penalizedSenders]
    constructor
    · rintro ⟨_, _, other, ho, _, _, hnot⟩
      rw [hv] at ho
      rwa [← Option.some.inj ho] at hnot
    · intro hnot
      exact ⟨hk, he, view, hv, hactive, hdone, hnot⟩

theorem not_illegalTargets (h : g.accepts bundle) (hf : g.liveFence bundle = none)
    (hh : ∀ view, g.liveView = some view → ¬holds (g.windowClassification bundle) view.live)
    (hn : ¬g.actsOnIncident bundle)
    (hr : (g.windowClassification bundle).kind = .recovery →
      (g.synthesis bundle).authority.interventionAuthorized = false) :
    ¬g.illegalTargets bundle := by
  rintro (⟨view, hv, hheld, _⟩ | ⟨hk, he, view, hv, hactive, _⟩ | hsel)
  · exact hh view hv hheld
  · have hl := liveRecord_of_view hf hv
    have hz := (synthesis_recovery_authorized_iff h hk).mpr ⟨he, view.live, hl, hactive⟩
    rw [hr hk] at hz
    contradiction
  · exact hn ((actsOnIncident_iff h).mpr ⟨hsel.1, hsel.2.1⟩)

/-- A window whose live record is not held holds no view at all. -/
theorem unheld_of_live (hf : g.liveFence bundle = none) {live : Intervention}
    (hl : g.liveRecord bundle = some live) (hn : ¬holds (g.windowClassification bundle) live) :
    ∀ view, g.liveView = some view → ¬holds (g.windowClassification bundle) view.live := by
  intro view hv
  obtain rfl := Option.some.inj (hl.symm.trans (liveRecord_of_view hf hv))
  exact hn

theorem unheld_of_empty (hf : g.liveFence bundle = none) (hl : g.liveRecord bundle = none) :
    ∀ view, g.liveView = some view → ¬holds (g.windowClassification bundle) view.live := by
  intro view hv
  rw [(liveRecord_eq_none hf).mp hl] at hv
  contradiction

/-- What an authorized decision has to satisfy is a matter of committed windows. -/
theorem authorized_imp_iff_not {p broken : Prop}
    (hbroken : broken → g.accepts bundle ∧ g.liveFence bundle = none)
    (h : g.accepts bundle → g.liveFence bundle = none →
      (((g.evaluate bundle).1.authorized → p) ↔ ¬broken)) :
    ((g.evaluate bundle).1.authorized → p) ↔ ¬broken := by
  by_cases hc : g.accepts bundle ∧ g.liveFence bundle = none
  · exact h hc.1 hc.2
  · refine ⟨fun _ hp => hc (hbroken hp), fun _ ha => ?_⟩
    exact absurd ⟨(authorized_iff.mp ha).1, (authorized_iff.mp ha).2.1⟩ hc

/-- One evaluation publishes legal targets exactly when it takes none of the three ways. -/
theorem publishesLegalTargets_iff (g : Governor) (bundle : EvidenceBundle) :
    g.publishesLegalTargets bundle ↔ ¬g.publishesIllegalTargets bundle := by
  refine authorized_imp_iff_not (fun hp => ⟨hp.1, hp.2.1⟩) fun h hf => ?_
  have hlegal : ((g.evaluate bundle).1.authorized → targetsLegal g.config.policy bundle
        (g.evaluate bundle).1.intent.penalizedSenders) ↔ ((g.effect bundle).authorizes →
      targetsLegal g.config.policy bundle
        (g.effectDecision bundle (g.effect bundle)).intent.penalizedSenders) := by
    rw [authorized_iff, evaluate_committed h hf, commit_intent]
    simp only [h, hf, true_and]
  have hpub : g.publishesIllegalTargets bundle ↔ g.illegalTargets bundle := by
    simp only [publishesIllegalTargets, h, hf, true_and]
  rw [hlegal, hpub]
  have hby := effect_by g bundle
  generalize g.effect bundle = effect at hby
  cases hby with
  | hold live hl hh =>
    obtain ⟨view, hv, rfl⟩ := view_of_liveRecord hf hl
    rw [illegalTargets_of_held hv hh, not_not]
    exact ⟨fun hp => hp trivial, fun hp _ => hp⟩
  | issue hl ha =>
    rw [illegalTargets_of_act h ha (unheld_of_empty hf hl), not_not]
    exact ⟨fun hp => hp trivial, fun hp _ => hp⟩
  | carryOn live hl hnh ha =>
    rw [illegalTargets_of_act h ha (unheld_of_live hf hl hnh), not_not]
    exact ⟨fun hp => hp trivial, fun hp _ => hp⟩
  | recover live hl hk ha hi =>
    rw [illegalTargets_of_recovery h hf hk ha, not_not]
    exact ⟨fun hp => hp trivial, fun hp _ => hp⟩
  | relax live hl hk ha hi =>
    rw [illegalTargets_of_recovery h hf hk ha, not_not]
    exact ⟨fun hp => hp trivial, fun hp _ => hp⟩
  | retireUnfounded live hl hk hn hs =>
    refine ⟨fun _ => ?_, fun _ hp => hp.elim⟩
    have hnh : ¬holds (g.windowClassification bundle) live := fun hh => hn hh.2.2.1
    exact not_illegalTargets h hf (unheld_of_live hf hl hnh) (fun ha => hn ha.1) fun hc => absurd hc hk
  | keep live hl hnh hn hr =>
    exact ⟨fun _ => not_illegalTargets h hf (unheld_of_live hf hl hnh) hn hr, fun _ hp => hp.elim⟩
  | idle hl hn =>
    refine ⟨fun _ => ?_, fun _ hp => hp.elim⟩
    exact not_illegalTargets h hf (unheld_of_empty hf hl) hn (synthesis_idle_recovery h hl)

/-- Over a run: every evaluation publishes legal targets exactly when none of them takes
one of the three ways. -/
theorem run_publishes_legal_targets_iff (config : GovernorConfig) (operations : List Operation) :
    (∀ call ∈ calls config operations, ∀ bundle, call.2 = .evaluate bundle →
        call.1.publishesLegalTargets bundle) ↔
      ∀ call ∈ calls config operations, ∀ bundle, call.2 = .evaluate bundle →
        ¬call.1.publishesIllegalTargets bundle := by
  constructor
  · intro h call hcall bundle hb
    exact (publishesLegalTargets_iff call.1 bundle).mp (h call hcall bundle hb)
  · intro h call hcall bundle hb
    exact (publishesLegalTargets_iff call.1 bundle).mpr (h call hcall bundle hb)

/-- A calm window in which the first penalized sender declares a protected obligation. -/
def protectedWindow : EvidenceBundle :=
  sampleBundle 2 2000000000
    [{ sampleRow 1 400 with protectedObligation := true }, sampleRow 2 400]

/-- The governor after the incident window. -/
def afterIncident : Governor := (create sampleConfig).step (.evaluate incidentWindow)

/-- The hold of the calm window penalizes the sender that is protected now. -/
theorem hold_penalizes_protected_sender :
    ¬∀ call ∈ calls sampleConfig [.evaluate incidentWindow, .evaluate protectedWindow],
      ∀ bundle, call.2 = .evaluate bundle → call.1.publishesLegalTargets bundle := by
  intro h
  have hmem : (afterIncident, Operation.evaluate protectedWindow) ∈
      calls sampleConfig [.evaluate incidentWindow, .evaluate protectedWindow] :=
    (Foundation.mem_calls_iff step).mpr ⟨[.evaluate incidentWindow], [], rfl, rfl⟩
  have hauth : (afterIncident.evaluate protectedWindow).1.authorized := by decide +kernel
  have hillegal : ¬targetsLegal afterIncident.config.policy protectedWindow
      (afterIncident.evaluate protectedWindow).1.intent.penalizedSenders := by
    decide +kernel
  have hlegal : afterIncident.publishesLegalTargets protectedWindow := h _ hmem _ rfl
  exact hillegal (hlegal hauth)

end Governor

end IncastGovernor
