import IncastGovernor.Governor.Hysteresis
import IncastGovernor.Governor.Targets

/-! The bindings of a published intent. A synthesized intent is stamped with the bindings of
the decision that publishes it. A hold and a recovery publish the stored intent of the live
record instead, with the bindings of the window that stored it, and a hold moves its expiry
without its issue instant. -/

namespace IncastGovernor

/-- The bindings that an intent shares with the decision it belongs to. -/
structure Binding where
  event : EventId
  window : WindowId
  destinationGeneration : DestinationGeneration
  policyGeneration : PolicyGeneration
  epoch : EpochId
  boot : BootIncarnation
  lease : LeaseId
  deriving DecidableEq

def MitigationIntent.binding (intent : MitigationIntent) : Binding :=
  { event := intent.event, window := intent.window
    destinationGeneration := intent.destinationGeneration
    policyGeneration := intent.policyGeneration
    epoch := intent.epoch, boot := intent.boot, lease := intent.lease }

def Decision.binding (decision : Decision) : Binding :=
  { event := decision.event, window := decision.window
    destinationGeneration := decision.destinationGeneration
    policyGeneration := decision.policyGeneration
    epoch := decision.epoch, boot := decision.boot, lease := decision.lease }

/-- The intent expires its duration after its issue. -/
def MitigationIntent.timed (intent : MitigationIntent) : Prop :=
  intent.expiresAt = ⟨intent.issuedAt.nanos + intent.duration.nanos⟩

namespace Governor

variable {g : Governor} {bundle : EvidenceBundle}

/-- An authorized decision publishes an intent that is bound to it. -/
def publishesBoundIntent (g : Governor) (bundle : EvidenceBundle) : Prop :=
  (g.evaluate bundle).1.authorized →
    (g.evaluate bundle).1.intent.binding = (g.evaluate bundle).1.binding ∧
      (g.evaluate bundle).1.intent.timed

/-! ### The stored intents that are published again -/

/-- The window is held, and the stored intent is of another binding or another instant. -/
def holdsForeignIntent (g : Governor) (bundle : EvidenceBundle) : Prop :=
  ∃ view, g.liveView = some view ∧ holds (g.windowClassification bundle) view.live ∧
    ¬(view.live.intent.binding = (g.draftDecision bundle).binding ∧
      view.live.intent.issuedAt = g.instant bundle)

/-- The window recovers, and the stored intent is of another binding. -/
def recoversForeignIntent (g : Governor) (bundle : EvidenceBundle) : Prop :=
  (g.windowClassification bundle).kind = .recovery ∧ g.config.policy.recovery.enabled = true ∧
    ∃ view, g.liveView = some view ∧ view.live.intent.active ∧
      view.live.intent.binding ≠ (g.draftDecision bundle).binding

/-- An evaluation publishes a stored intent that is not bound to its decision. -/
def publishesForeignIntent (g : Governor) (bundle : EvidenceBundle) : Prop :=
  g.accepts bundle ∧ g.liveFence bundle = none ∧
    (g.holdsForeignIntent bundle ∨ g.recoversForeignIntent bundle)

/-! ### The bindings of a decision -/

theorem commit_binding (effect : Effect) :
    (g.commit bundle effect).1.binding = (g.draftDecision bundle).binding := by
  cases effect <;> rfl

/-- A synthesized action is bound to the window and to the authority that accepted it. -/
theorem acted_bound (h : g.accepts bundle) (ha : g.actsOnIncident bundle) :
    (g.synthesis bundle).intent.binding = (g.draftDecision bundle).binding ∧
      (g.synthesis bundle).intent.timed := by
  obtain ⟨hk, action, hs, hr⟩ := (actsOnIncident_iff h).mp ha
  have hgranted := bindingGranted_of_accepts h
  have hdraft : (g.draftDecision bundle).binding =
      ((g.synthesisRequest bundle).bindings bundle g.config.policy
        (g.windowClassification bundle)).binding := by
    unfold Decision.binding draftDecision
    simp only [← hgranted.epoch, ← hgranted.boot, ← hgranted.lease]
    rfl
  rw [synthesis_of_incident h hk, (synthesizeIncident_authorized hs hr).2.2, hdraft]
  refine ⟨?_, rfl⟩
  unfold actionIntent
  simp only
  split_ifs <;> rfl

/-- The expiry of a held intent fits its issue at the held instant only. -/
theorem held_timed_iff (now : Timestamp) (live : Intervention) :
    (heldRecord now live).intent.timed ↔ live.intent.issuedAt = now := by
  have hnanos : (heldRecord now live).intent.timed ↔
      now.nanos + live.intent.duration.nanos =
        live.intent.issuedAt.nanos + live.intent.duration.nanos := by
    show (Timestamp.mk _ = Timestamp.mk _) ↔ _
    rw [Timestamp.mk.injEq]
    rfl
  rw [hnanos, Int64.add_left_inj, eq_comm]
  exact ⟨congrArg Timestamp.mk, congrArg Timestamp.nanos⟩

/-- A recovery issues the stored intent anew and keeps its bindings. -/
theorem recovered_binding (h : g.accepts bundle) (hf : g.liveFence bundle = none)
    (hk : (g.windowClassification bundle).kind = .recovery)
    (he : g.config.policy.recovery.enabled = true) {view : LiveView}
    (hv : g.liveView = some view) (ha : view.live.intent.active) :
    (g.synthesis bundle).intent.binding = view.live.intent.binding ∧
      (g.synthesis bundle).intent.timed := by
  rw [recoverySynthesis_intent h hf hk he hv ha]
  simp only
  split_ifs <;> exact ⟨rfl, rfl⟩

/-! ### One evaluation -/

theorem publishesForeignIntent_of_held {view : LiveView} (h : g.accepts bundle)
    (hf : g.liveFence bundle = none) (hv : g.liveView = some view)
    (hh : holds (g.windowClassification bundle) view.live) :
    g.publishesForeignIntent bundle ↔
      ¬(view.live.intent.binding = (g.draftDecision bundle).binding ∧
        view.live.intent.issuedAt = g.instant bundle) := by
  constructor
  · rintro ⟨-, -, ⟨other, ho, -, hnot⟩ | hrecovers⟩
    · rw [hv] at ho
      rwa [← Option.some.inj ho] at hnot
    · exact absurd hh (not_holds_of_recovery hrecovers.1)
  · exact fun hnot => ⟨h, hf, .inl ⟨view, hv, hh, hnot⟩⟩

theorem publishesForeignIntent_of_recovery (h : g.accepts bundle) (hf : g.liveFence bundle = none)
    (hk : (g.windowClassification bundle).kind = .recovery)
    (ha : (g.synthesis bundle).authority.interventionAuthorized = true) :
    g.publishesForeignIntent bundle ↔
      ¬((g.synthesis bundle).intent.binding = (g.draftDecision bundle).binding ∧
        (g.synthesis bundle).intent.timed) := by
  obtain ⟨he, live, hl, hactive⟩ := (synthesis_recovery_authorized_iff h hk).mp ha
  obtain ⟨view, hv, rfl⟩ := view_of_liveRecord hf hl
  obtain ⟨hbinding, htimed⟩ := recovered_binding h hf hk he hv hactive
  rw [hbinding, and_iff_left htimed]
  constructor
  · rintro ⟨-, -, ⟨_, _, hh, _⟩ | ⟨_, _, other, ho, _, hnot⟩⟩
    · exact absurd hh (not_holds_of_recovery hk)
    · rw [hv] at ho
      rwa [← Option.some.inj ho] at hnot
  · exact fun hnot => ⟨h, hf, .inr ⟨hk, he, view, hv, hactive, hnot⟩⟩

/-- A window that acts on an incident publishes no stored intent. -/
theorem not_publishesForeignIntent_of_act (ha : g.actsOnIncident bundle)
    (hh : ∀ view, g.liveView = some view → ¬holds (g.windowClassification bundle) view.live) :
    ¬g.publishesForeignIntent bundle := by
  rintro ⟨-, -, ⟨view, hv, hheld, -⟩ | hrecovers⟩
  · exact hh view hv hheld
  · exact not_actsOnIncident_of_recovery hrecovers.1 ha

/-- Nor does one that authorizes nothing. -/
theorem not_publishesForeignIntent
    (hh : ∀ view, g.liveView = some view → ¬holds (g.windowClassification bundle) view.live)
    (hr : (g.windowClassification bundle).kind = .recovery →
      (g.synthesis bundle).authority.interventionAuthorized = false) :
    ¬g.publishesForeignIntent bundle := by
  rintro ⟨h, hf, ⟨view, hv, hheld, -⟩ | ⟨hk, he, view, hv, hactive, -⟩⟩
  · exact hh view hv hheld
  · have hl := liveRecord_of_view hf hv
    have hauthorized := (synthesis_recovery_authorized_iff h hk).mpr ⟨he, view.live, hl, hactive⟩
    rw [hr hk] at hauthorized
    cases hauthorized

/-- One evaluation publishes a bound intent exactly when it publishes no foreign one. -/
theorem publishesBoundIntent_iff (g : Governor) (bundle : EvidenceBundle) :
    g.publishesBoundIntent bundle ↔ ¬g.publishesForeignIntent bundle := by
  refine authorized_imp_iff_not (fun hp => ⟨hp.1, hp.2.1⟩) fun h hf => ?_
  change g.publishesBoundIntent bundle ↔ _
  have hpublishes : g.publishesBoundIntent bundle ↔ ((g.effect bundle).authorizes →
      (g.effectDecision bundle (g.effect bundle)).intent.binding =
          (g.draftDecision bundle).binding ∧
        (g.effectDecision bundle (g.effect bundle)).intent.timed) := by
    unfold publishesBoundIntent
    rw [authorized_iff, evaluate_committed h hf, commit_binding, commit_intent]
    simp only [h, hf, true_and]
  rw [hpublishes]
  have hby := effect_by g bundle
  generalize g.effect bundle = effect at hby
  cases hby with
  | hold live hl hh =>
    obtain ⟨view, hv, rfl⟩ := view_of_liveRecord hf hl
    rw [publishesForeignIntent_of_held h hf hv hh, not_not, ← held_timed_iff]
    exact ⟨fun hp => hp trivial, fun hp _ => hp⟩
  | issue hl ha =>
    exact iff_of_true (fun _ => acted_bound h ha) (not_publishesForeignIntent_of_act ha (unheld_of_empty hf hl))
  | carryOn live hl hnh ha =>
    exact iff_of_true (fun _ => acted_bound h ha)
      (not_publishesForeignIntent_of_act ha (unheld_of_live hf hl hnh))
  | recover live hl hk ha hi =>
    rw [publishesForeignIntent_of_recovery h hf hk ha, not_not]
    exact ⟨fun hp => hp trivial, fun hp _ => hp⟩
  | relax live hl hk ha hi =>
    rw [publishesForeignIntent_of_recovery h hf hk ha, not_not]
    exact ⟨fun hp => hp trivial, fun hp _ => hp⟩
  | retireUnfounded live hl hk hn hs =>
    have hnh : ¬holds (g.windowClassification bundle) live := fun hh => hn hh.2.2.1
    exact iff_of_true (fun hp => hp.elim)
      (not_publishesForeignIntent (unheld_of_live hf hl hnh) fun hc => absurd hc hk)
  | keep live hl hnh hn hr =>
    exact iff_of_true (fun hp => hp.elim) (not_publishesForeignIntent (unheld_of_live hf hl hnh) hr)
  | idle hl hn =>
    exact iff_of_true (fun hp => hp.elim)
      (not_publishesForeignIntent (unheld_of_empty hf hl) (synthesis_idle_recovery h hl))

/-- Over a run: every authorized decision publishes an intent that is bound to it exactly when
no evaluation publishes a stored intent of another binding, or holds one of another instant. -/
theorem run_publishes_bound_intents_iff (config : GovernorConfig) (operations : List Operation) :
    (∀ call ∈ calls config operations, ∀ bundle, call.2 = .evaluate bundle →
        call.1.publishesBoundIntent bundle) ↔
      ∀ call ∈ calls config operations, ∀ bundle, call.2 = .evaluate bundle →
        ¬call.1.publishesForeignIntent bundle := by
  constructor
  · intro h call hcall bundle hb
    exact (publishesBoundIntent_iff call.1 bundle).mp (h call hcall bundle hb)
  · intro h call hcall bundle hb
    exact (publishesBoundIntent_iff call.1 bundle).mpr (h call hcall bundle hb)

/-- The hold of the first calm window publishes the intent of the incident window. -/
theorem hold_publishes_foreign_window :
    ¬∀ (config : GovernorConfig) (operations : List Operation),
      ∀ call ∈ calls config operations, ∀ bundle, call.2 = .evaluate bundle →
        call.1.publishesBoundIntent bundle := by
  intro h
  have hmem : (incidentGovernor, Operation.evaluate (calmWindow 2 2000000000)) ∈
      calls sampleConfig [.evaluate incidentWindow, .evaluate (calmWindow 2 2000000000)] :=
    (Foundation.mem_calls_iff step).mpr ⟨[.evaluate incidentWindow], [], rfl, rfl⟩
  have hauthorized : (incidentGovernor.evaluate (calmWindow 2 2000000000)).1.authorized := by
    decide +kernel
  have hforeign : (incidentGovernor.evaluate (calmWindow 2 2000000000)).1.intent.binding ≠
      (incidentGovernor.evaluate (calmWindow 2 2000000000)).1.binding := by
    decide +kernel
  have hbound : incidentGovernor.publishesBoundIntent (calmWindow 2 2000000000) :=
    h sampleConfig _ _ hmem _ rfl
  exact hforeign (hbound hauthorized).1

end Governor

end IncastGovernor
