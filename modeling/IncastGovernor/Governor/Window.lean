import IncastGovernor.Governor.Operations

/-! What one evaluation can do. A bundle that passes every check is accepted; the three
exits follow from acceptance and the fence; an accepted window is authoritatively
classified; each effect pins down the live record and the synthesis behind it. The
table stays bounded under every operation. -/

namespace IncastGovernor

namespace Governor

variable {g : Governor} {bundle : EvidenceBundle}

/-! ### The exits of an evaluation -/

/-- Every check before classification passed. -/
def accepts (g : Governor) (bundle : EvidenceBundle) : Prop :=
  g.bindingRefusal bundle = none ∧ (g.authorityCheck bundle).reason = .none

instance : Decidable (g.accepts bundle) := by
  delta accepts; infer_instance

theorem evaluate_refused (h : ¬g.accepts bundle) :
    ∃ decision reason detail, g.evaluate bundle = g.refuse decision reason detail := by
  unfold evaluate
  cases hb : g.bindingRefusal bundle with
  | some denial => exact ⟨_, denial.1, denial.2, rfl⟩
  | none =>
    have hr : (g.authorityCheck bundle).reason ≠ .none := fun hr => h ⟨hb, hr⟩
    simp only [ne_eq, hr, not_false_eq_true, if_true]
    exact ⟨_, _, _, rfl⟩

theorem accepts_of_not_refused (h : (g.evaluate bundle).1.outcome ≠ .refused) :
    g.accepts bundle := by
  by_contra hn
  obtain ⟨decision, reason, detail, he⟩ := evaluate_refused hn
  rw [he] at h
  exact h rfl

theorem evaluate_fenced (h : g.accepts bundle) {view : LiveView} (hv : g.liveView = some view)
    {denial : RefusalReason × Text} (hf : g.liveFence bundle = some denial) :
    g.evaluate bundle = g.fence bundle view denial.1 denial.2 := by
  unfold evaluate
  simp [h.1, h.2, hv, hf]

theorem evaluate_committed (h : g.accepts bundle) (hf : g.liveFence bundle = none) :
    g.evaluate bundle = g.commit bundle (g.effect bundle) := by
  unfold evaluate
  cases hv : g.liveView <;> simp [h.1, h.2, hf]

theorem liveFence_none_of_view (hv : g.liveView = none) : g.liveFence bundle = none := by
  simp [liveFence, hv]

/-- The three exits. -/
theorem evaluate_cases (g : Governor) (bundle : EvidenceBundle) :
    (¬g.accepts bundle ∧
        ∃ decision reason detail, g.evaluate bundle = g.refuse decision reason detail) ∨
      (g.accepts bundle ∧ ∃ view denial, g.liveView = some view ∧
        g.liveFence bundle = some denial ∧
        g.evaluate bundle = g.fence bundle view denial.1 denial.2) ∨
      (g.accepts bundle ∧ g.liveFence bundle = none ∧
        g.evaluate bundle = g.commit bundle (g.effect bundle)) := by
  by_cases h : g.accepts bundle
  · right
    cases hf : g.liveFence bundle with
    | none => exact Or.inr ⟨h, rfl, evaluate_committed h hf⟩
    | some denial =>
      cases hv : g.liveView with
      | none =>
        rw [liveFence_none_of_view hv] at hf
        contradiction
      | some view => exact Or.inl ⟨h, view, denial, rfl, rfl, evaluate_fenced h hv hf⟩
  · exact Or.inl ⟨h, evaluate_refused h⟩

@[simp] theorem addNotes_outcome (decision : Decision) (maxNotes : ℕ) (notes : List Text) :
    (decision.addNotes maxNotes notes).outcome = decision.outcome := rfl

@[simp] theorem addNotes_intent (decision : Decision) (maxNotes : ℕ) (notes : List Text) :
    (decision.addNotes maxNotes notes).intent = decision.intent := rfl

@[simp] theorem addNotes_authority (decision : Decision) (maxNotes : ℕ) (notes : List Text) :
    (decision.addNotes maxNotes notes).authority = decision.authority := rfl

@[simp] theorem addNotes_kind (decision : Decision) (maxNotes : ℕ) (notes : List Text) :
    (decision.addNotes maxNotes notes).kind = decision.kind := rfl

@[simp] theorem addNotes_intervention (decision : Decision) (maxNotes : ℕ) (notes : List Text) :
    (decision.addNotes maxNotes notes).intervention = decision.intervention := rfl

@[simp] theorem refuse_outcome (decision : Decision) (reason : RefusalReason) (detail : Text) :
    (g.refuse decision reason detail).1.outcome = .refused := rfl

@[simp] theorem refuse_authorized (decision : Decision) (reason : RefusalReason) (detail : Text) :
    (g.refuse decision reason detail).1.authority.interventionAuthorized = false := rfl

@[simp] theorem refuse_interventions (decision : Decision) (reason : RefusalReason)
    (detail : Text) :
    (g.refuse decision reason detail).2.state.interventions = g.state.interventions := rfl

@[simp] theorem fence_outcome (view : LiveView) (reason : RefusalReason) (detail : Text) :
    (g.fence bundle view reason detail).1.outcome = .interventionFenced := rfl

@[simp] theorem fence_refusal (view : LiveView) (reason : RefusalReason) (detail : Text) :
    (g.fence bundle view reason detail).1.refusal = reason := rfl

@[simp] theorem fence_interventions (view : LiveView) (reason : RefusalReason) (detail : Text) :
    (g.fence bundle view reason detail).2.state.interventions =
      view.put (fencedRecord (g.instant bundle) detail view.live) := rfl

@[simp] theorem fence_authorized (view : LiveView) (reason : RefusalReason) (detail : Text) :
    (g.fence bundle view reason detail).1.authority.interventionAuthorized = false := rfl

@[simp] theorem commit_outcome (effect : Effect) :
    (g.commit bundle effect).1.outcome = (g.effectDecision bundle effect).outcome := rfl

@[simp] theorem commit_intent (effect : Effect) :
    (g.commit bundle effect).1.intent = (g.effectDecision bundle effect).intent := rfl

@[simp] theorem commit_authority (effect : Effect) :
    (g.commit bundle effect).1.authority = (g.effectDecision bundle effect).authority := rfl

@[simp] theorem commit_kind (effect : Effect) :
    (g.commit bundle effect).1.kind = (g.effectDecision bundle effect).kind := rfl

@[simp] theorem commit_intervention (effect : Effect) :
    (g.commit bundle effect).1.intervention = (g.effectDecision bundle effect).intervention := rfl

theorem commit_interventions (effect : Effect) :
    (g.commit bundle effect).2.state.interventions =
      trimInterventions (g.effectState bundle effect).interventions := rfl

/-- Only a committed window authorizes. -/
theorem committed_of_authorized (h : (g.evaluate bundle).1.authorized) :
    g.accepts bundle ∧ g.liveFence bundle = none ∧
      g.evaluate bundle = g.commit bundle (g.effect bundle) := by
  rcases evaluate_cases g bundle with ⟨_, decision, reason, detail, he⟩ | ⟨_, view, denial, _, _, he⟩ | hc
  · rw [Decision.authorized, he, refuse_authorized] at h
    contradiction
  · rw [Decision.authorized, he, fence_authorized] at h
    contradiction
  · exact hc

/-! ### An accepted bundle -/

/-- The conditions behind an accepted bundle. -/
structure BindingGranted (g : Governor) (bundle : EvidenceBundle) : Prop where
  accepting : g.accepting = true
  bound : g.config.epoch.valid ∧ g.config.boot.valid ∧ g.config.lease.valid
  structural : bundle.structurallyValid
  destination : g.config.destination.valid → bundle.destination = g.config.destination
  epoch : bundle.epoch = g.config.epoch
  boot : bundle.boot = g.config.boot
  lease : bundle.lease = g.config.lease
  leaseExpiry : g.config.leaseExpiry.valid → ¬g.instant bundle > g.config.leaseExpiry

theorem instant_of_structurallyValid (h : bundle.structurallyValid) : g.instant bundle = bundle.now :=
  if_pos h.2.2.2.1

theorem bindingGranted_of_accepts (h : g.accepts bundle) : BindingGranted g bundle := by
  have hb := h.1
  simp only [bindingRefusal, ite_some_eq_none_iff] at hb
  obtain ⟨h1, h2, h3, h4, h5, h6, h7, h8, h9, h10, h11, _⟩ := hb
  push Not at h1 h2 h3 h7 h8 h10
  have hnow : (g.instant bundle).valid := by
    rw [instant_of_structurallyValid h3]
    exact h3.2.2.2.1
  refine ⟨h1, h2, h3, fun hv => ?_, (h7 h2.1).2, (h8 h2.2.1).2, (h10 h2.2.2).2, fun hv hgt => ?_⟩
  · by_contra hne
    exact h4 ⟨hv, hne⟩
  · exact h11 ⟨hv, hnow, hgt⟩

theorem authorityGranted_of_accepts (h : g.accepts bundle) :
    AuthorityGranted bundle g.config.policy (g.referenceSequences bundle) :=
  checkAuthority_reason_iff.mp h.2

/-! ### The classification of an accepted bundle -/

/-- The classification of the window on its own evidence and the recorded history. -/
def classified (g : Governor) (bundle : EvidenceBundle) : Classification :=
  classify bundle g.config.policy (detectCollisions bundle) g.classificationContext

theorem windowClassification_eq (g : Governor) (bundle : EvidenceBundle) :
    g.windowClassification bundle =
      if (g.liveView).isSome ∧ (g.classified bundle).authoritative ∧
          ¬(g.classified bundle).hysteresisHeld ∧ ¬(g.classified bundle).kind.incident then
        { g.classified bundle with kind := .recovery }
      else g.classified bundle := rfl

/-- The override of the kind leaves the rest of the classification alone. -/
theorem windowClassification_fields (g : Governor) (bundle : EvidenceBundle) :
    (g.windowClassification bundle).instantaneousKind = (g.classified bundle).instantaneousKind ∧
      (g.windowClassification bundle).synchronization = (g.classified bundle).synchronization ∧
      (g.windowClassification bundle).metrics = (g.classified bundle).metrics ∧
      (g.windowClassification bundle).contributions = (g.classified bundle).contributions ∧
      (g.windowClassification bundle).authoritative = (g.classified bundle).authoritative ∧
      (g.windowClassification bundle).hysteresisHeld = (g.classified bundle).hysteresisHeld := by
  rw [windowClassification_eq]
  split_ifs <;> simp

theorem windowClassification_authoritative (h : g.accepts bundle) :
    (g.windowClassification bundle).authoritative = true := by
  rw [(windowClassification_fields g bundle).2.2.2.2.1]
  exact classify_authoritative (authorityGranted_of_accepts h).withoutSequences

theorem windowClassification_instantaneousKind (h : g.accepts bundle) :
    (g.windowClassification bundle).instantaneousKind =
      classifyInstantaneous (g.windowClassification bundle).metrics
        (g.windowClassification bundle).synchronization g.config.policy := by
  obtain ⟨hi, hs, hm, _⟩ := windowClassification_fields g bundle
  rw [hi, hs, hm]
  exact classify_instantaneousKind (authorityGranted_of_accepts h).withoutSequences

/-! ### The live record -/

/-- The fence covers the expiry boundary: an unfenced record is not past it. -/
theorem liveRecord_of_unfenced (hf : g.liveFence bundle = none) :
    g.liveRecord bundle = (g.liveView).map fun view => view.live := by
  unfold liveRecord
  cases hv : g.liveView with
  | none => rfl
  | some view =>
    have hn : isFenced view.live (g.fenceContext bundle) = none := by
      simpa [liveFence, hv] using hf
    have hx := (isFenced_eq_none hn).2.2
    have hx' : ¬(view.live.expiresAt.valid ∧ (g.instant bundle).valid ∧
        g.instant bundle > view.live.expiresAt ∧ view.live.state ≠ .revalidating) :=
      fun h => hx ⟨h.1, h.2.1, h.2.2.1⟩
    simp only [Option.map_some, expireRecord]
    rw [if_neg hx']

theorem liveRecord_of_view (hf : g.liveFence bundle = none) {view : LiveView}
    (hv : g.liveView = some view) : g.liveRecord bundle = some view.live := by
  rw [liveRecord_of_unfenced hf, hv]
  rfl

theorem view_of_liveRecord (hf : g.liveFence bundle = none) {live : Intervention}
    (hl : g.liveRecord bundle = some live) : ∃ view, g.liveView = some view ∧ view.live = live := by
  rw [liveRecord_of_unfenced hf] at hl
  exact Option.map_eq_some_iff.mp hl

theorem liveRecord_eq_none (hf : g.liveFence bundle = none) :
    g.liveRecord bundle = none ↔ g.liveView = none := by
  rw [liveRecord_of_unfenced hf, Option.map_eq_none_iff]

theorem liveView_splits {view : LiveView} (h : g.liveView = some view) :
    view.Splits g.state.interventions := findLive_eq_some h

/-- An unfenced live record carries the bound epoch and boot. -/
theorem live_bound (h : g.accepts bundle) {view : LiveView} (hv : g.liveView = some view)
    (hf : g.liveFence bundle = none) :
    view.live.epoch = g.config.epoch ∧ view.live.boot = g.config.boot := by
  have hn : isFenced view.live (g.fenceContext bundle) = none := by
    simpa [liveFence, hv] using hf
  have hb := bindingGranted_of_accepts h
  exact ⟨(isFenced_eq_none hn).1 hb.bound.1, (isFenced_eq_none hn).2.1 hb.bound.2.1⟩

/-! ### The effect of a window -/

/-- The window asks for a bounded action and synthesis authorizes one. -/
def actsOnIncident (g : Governor) (bundle : EvidenceBundle) : Prop :=
  (g.windowClassification bundle).kind.incident ∧
    (g.synthesis bundle).authority.interventionAuthorized = true ∧
    (g.synthesis bundle).intent.active

/-- The conditions each effect comes from. -/
inductive EffectBy (g : Governor) (bundle : EvidenceBundle) : Effect → Prop
  | hold (live : Intervention) (hl : g.liveRecord bundle = some live)
    (hh : holds (g.windowClassification bundle) live) :
    EffectBy g bundle (.hold (heldRecord (g.instant bundle) live))
  | issue (hl : g.liveRecord bundle = none) (ha : g.actsOnIncident bundle) :
    EffectBy g bundle
      (.issue (createdRecord bundle g.config.policy (g.instant bundle) (g.synthesis bundle).intent))
  | carryOn (live : Intervention) (hl : g.liveRecord bundle = some live)
    (hh : ¬holds (g.windowClassification bundle) live) (ha : g.actsOnIncident bundle) :
    EffectBy g bundle
      (.carryOn (continuedRecord (g.instant bundle) (g.synthesis bundle).intent live))
  | recover (live : Intervention) (hl : g.liveRecord bundle = some live)
    (hk : (g.windowClassification bundle).kind = .recovery)
    (ha : (g.synthesis bundle).authority.interventionAuthorized = true)
    (hi : ¬(g.synthesis bundle).intent.active) :
    EffectBy g bundle
      (.recover (recoveredRecord (g.instant bundle) (g.synthesis bundle).intent live))
  | relax (live : Intervention) (hl : g.liveRecord bundle = some live)
    (hk : (g.windowClassification bundle).kind = .recovery)
    (ha : (g.synthesis bundle).authority.interventionAuthorized = true)
    (hi : (g.synthesis bundle).intent.active) :
    EffectBy g bundle
      (.relax (relaxedRecord (g.instant bundle) (g.synthesis bundle).intent live))
  | retireUnfounded (live : Intervention) (hl : g.liveRecord bundle = some live)
    (hk : (g.windowClassification bundle).kind ≠ .recovery)
    (hn : ¬(g.windowClassification bundle).kind.incident) (hs : live.state = .revalidating) :
    EffectBy g bundle (.retireUnfounded (unfoundedRecord (g.instant bundle) live))
  | keep (live : Intervention) (hl : g.liveRecord bundle = some live)
    (hh : ¬holds (g.windowClassification bundle) live) (ha : ¬g.actsOnIncident bundle)
    (hr : (g.windowClassification bundle).kind = .recovery →
      (g.synthesis bundle).authority.interventionAuthorized = false) :
    EffectBy g bundle (.noAction (some live))
  | idle (hl : g.liveRecord bundle = none) (ha : ¬g.actsOnIncident bundle) :
    EffectBy g bundle (.noAction none)

theorem not_incident_of_recovery (h : (g.windowClassification bundle).kind = .recovery) :
    ¬(g.windowClassification bundle).kind.incident := by
  rw [h]
  simp [IncidentKind.incident]

theorem synthesizedEffect_by
    (hh : ∀ live, g.liveRecord bundle = some live → ¬holds (g.windowClassification bundle) live) :
    EffectBy g bundle (g.synthesizedEffect bundle) := by
  unfold synthesizedEffect
  simp only
  by_cases ha : g.actsOnIncident bundle
  · have hc := ha
    unfold actsOnIncident at hc
    rw [if_pos hc]
    cases hl : g.liveRecord bundle with
    | none => exact .issue hl ha
    | some live => exact .carryOn live hl (hh live hl) ha
  · have hc := ha
    unfold actsOnIncident at hc
    rw [if_neg hc]
    cases hl : g.liveRecord bundle with
    | none => exact .idle hl ha
    | some live =>
      simp only
      split_ifs with hk hz hi hn
      · exact .relax live hl hk hz hi
      · exact .recover live hl hk hz hi
      · exact .keep live hl (hh live hl) ha fun _ => by simpa using hz
      · exact .retireUnfounded live hl hk hn.1 hn.2.2
      · exact .keep live hl (hh live hl) ha fun h => absurd h hk

/-- Every effect comes from its conditions. -/
theorem effect_by (g : Governor) (bundle : EvidenceBundle) :
    EffectBy g bundle (g.effect bundle) := by
  unfold effect
  cases hl : g.liveRecord bundle with
  | none =>
    apply synthesizedEffect_by
    intro live h
    rw [hl] at h
    contradiction
  | some live =>
    simp only
    split_ifs with hh
    · exact .hold live hl hh
    · apply synthesizedEffect_by
      intro other h
      rw [hl] at h
      rwa [← Option.some.inj h]

/-! ### The synthesis of an accepted window -/

theorem synthesis_of_recovery (h : g.accepts bundle)
    (hk : (g.windowClassification bundle).kind = .recovery) :
    g.synthesis bundle =
      synthesizeRecovery (g.synthesisRequest bundle) bundle g.config.policy
        ((g.synthesisRequest bundle).bindings bundle g.config.policy
          (g.windowClassification bundle))
        ((g.synthesisRequest bundle).authority bundle g.config.policy
          (g.windowClassification bundle)) := by
  unfold synthesis
  rw [synthesize_complete rfl rfl rfl]
  exact synthesizeWindow_recovery h.2 (authorityGranted_of_accepts h).enabled hk

theorem synthesis_recovery_authorized_iff (h : g.accepts bundle)
    (hk : (g.windowClassification bundle).kind = .recovery) :
    (g.synthesis bundle).authority.interventionAuthorized = true ↔
      g.config.policy.recovery.enabled = true ∧
        ∃ live, g.liveRecord bundle = some live ∧ live.intent.active := by
  rw [synthesis_of_recovery h hk, synthesizeRecovery_authorized_iff]
  simp only [synthesisRequest, Option.map_eq_some_iff]
  constructor
  · rintro ⟨he, prior, ⟨live, hl, rfl⟩, ha⟩
    exact ⟨he, live, hl, ha⟩
  · rintro ⟨he, live, hl, ha⟩
    exact ⟨he, live.intent, ⟨live, hl, rfl⟩, ha⟩

theorem effectDecision_kind (effect : Effect) :
    (g.effectDecision bundle effect).kind = (g.windowClassification bundle).kind := by
  cases effect <;> rfl

theorem not_holds_of_recovery {live : Intervention}
    (hk : (g.windowClassification bundle).kind = .recovery) :
    ¬holds (g.windowClassification bundle) live :=
  fun hh => not_incident_of_recovery hk hh.2.2.1

theorem not_actsOnIncident_of_recovery (hk : (g.windowClassification bundle).kind = .recovery) :
    ¬g.actsOnIncident bundle := fun ha => not_incident_of_recovery hk ha.1

theorem synthesis_of_incident (h : g.accepts bundle)
    (hk : (g.windowClassification bundle).kind.incident) :
    g.synthesis bundle =
      synthesizeIncident (g.synthesisRequest bundle) bundle g.config.policy
        (g.windowClassification bundle)
        ((g.synthesisRequest bundle).bindings bundle g.config.policy
          (g.windowClassification bundle))
        ((g.synthesisRequest bundle).authority bundle g.config.policy
          (g.windowClassification bundle)) := by
  unfold synthesis
  rw [synthesize_complete rfl rfl rfl]
  exact synthesizeWindow_incident h.2 (authorityGranted_of_accepts h).enabled hk

/-- A window acts on an incident exactly when its kind is one and an action is available. -/
theorem actsOnIncident_iff (h : g.accepts bundle) :
    g.actsOnIncident bundle ↔
      (g.windowClassification bundle).kind.incident ∧
        actionAvailable bundle g.config.policy (g.windowClassification bundle) := by
  constructor
  · rintro ⟨hk, ha, _⟩
    refine ⟨hk, ?_⟩
    rw [synthesis_of_incident h hk] at ha
    exact synthesizeIncident_authorized_iff.mp ha
  · rintro ⟨hk, action, hs, hr⟩
    refine ⟨hk, ?_, ?_⟩
    · rw [synthesis_of_incident h hk]
      exact (synthesizeIncident_authorized hs hr).1
    · rw [synthesis_of_incident h hk, (synthesizeIncident_authorized hs hr).2.2]
      exact actionIntent_active hs

/-- Without an action on an incident or an authorized recovery nothing is authorized. -/
theorem synthesis_unauthorized (h : g.accepts bundle) (hn : ¬g.actsOnIncident bundle)
    (hr : (g.windowClassification bundle).kind = .recovery →
      (g.synthesis bundle).authority.interventionAuthorized = false) :
    (g.synthesis bundle).authority.interventionAuthorized = false := by
  by_cases hi : (g.windowClassification bundle).kind.incident
  · by_contra ha
    rw [synthesis_of_incident h hi, Bool.not_eq_false, synthesizeIncident_authorized_iff] at ha
    exact hn ((actsOnIncident_iff h).mpr ⟨hi, ha⟩)
  · by_cases hk : (g.windowClassification bundle).kind = .recovery
    · exact hr hk
    · unfold synthesis
      rw [synthesize_complete rfl rfl rfl]
      exact (synthesizeWindow_unauthorized (Or.inr (Or.inr ⟨hi, hk⟩))).1

/-- A recovery synthesis needs a live record. -/
theorem synthesis_idle_recovery (h : g.accepts bundle) (hl : g.liveRecord bundle = none)
    (hk : (g.windowClassification bundle).kind = .recovery) :
    (g.synthesis bundle).authority.interventionAuthorized = false := by
  by_contra ha
  rw [Bool.not_eq_false, synthesis_recovery_authorized_iff h hk] at ha
  obtain ⟨_, live, hlive, _⟩ := ha
  rw [hl] at hlive
  contradiction

/-- The effects an authorized decision can have. -/
def Effect.authorizes : Effect → Prop
  | .hold _ | .issue _ | .carryOn _ | .recover _ | .relax _ => True
  | .retireUnfounded _ | .noAction _ => False

theorem effectDecision_authorized_iff (h : g.accepts bundle) :
    (g.effectDecision bundle (g.effect bundle)).authority.interventionAuthorized = true ↔
      (g.effect bundle).authorizes := by
  have hsynthesis : ∀ effect : Effect, ¬effect.authorizes →
      (g.effectDecision bundle effect).authority.interventionAuthorized =
        (g.synthesis bundle).authority.interventionAuthorized := by
    intro effect he
    cases effect <;> first | rfl | exact absurd trivial he
  have hby := effect_by g bundle
  generalize g.effect bundle = effect at hby
  cases hby with
  | hold live hl hh => exact ⟨fun _ => trivial, fun _ => rfl⟩
  | issue hl ha => exact ⟨fun _ => trivial, fun _ => ha.2.1⟩
  | carryOn live hl hh ha => exact ⟨fun _ => trivial, fun _ => ha.2.1⟩
  | recover live hl hk ha hi => exact ⟨fun _ => trivial, fun _ => ha⟩
  | relax live hl hk ha hi => exact ⟨fun _ => trivial, fun _ => ha⟩
  | retireUnfounded live hl hk hn hs =>
    rw [hsynthesis _ id, synthesis_unauthorized h (fun ha => hn ha.1) (fun hr => absurd hr hk)]
    exact ⟨fun hc => absurd hc Bool.false_ne_true, fun hc => hc.elim⟩
  | keep live hl _ hn hr =>
    rw [hsynthesis _ id, synthesis_unauthorized h hn hr]
    exact ⟨fun hc => absurd hc Bool.false_ne_true, fun hc => hc.elim⟩
  | idle hl hn =>
    rw [hsynthesis _ id, synthesis_unauthorized h hn (synthesis_idle_recovery h hl)]
    exact ⟨fun hc => absurd hc Bool.false_ne_true, fun hc => hc.elim⟩

theorem authorized_iff :
    (g.evaluate bundle).1.authorized ↔
      g.accepts bundle ∧ g.liveFence bundle = none ∧ (g.effect bundle).authorizes := by
  constructor
  · intro ha
    obtain ⟨h, hf, he⟩ := committed_of_authorized ha
    refine ⟨h, hf, (effectDecision_authorized_iff h).mp ?_⟩
    rw [Decision.authorized, he, commit_authority] at ha
    exact ha
  · rintro ⟨h, hf, hby⟩
    rw [Decision.authorized, evaluate_committed h hf, commit_authority]
    exact (effectDecision_authorized_iff h).mpr hby

/-! ### Positions of the table -/

theorem getElem?_live {view : LiveView} (hv : g.liveView = some view) :
    g.state.interventions[view.before.length]? = some view.live := by
  rw [(liveView_splits hv).table]
  simp [LiveView.put]

/-- Replacing the live record changes the table at its position only. -/
theorem getElem?_put {view : LiveView} (hv : g.liveView = some view) (record : Intervention)
    (i : ℕ) :
    (view.put record)[i]? =
      if i = view.before.length then some record else g.state.interventions[i]? := by
  rw [(liveView_splits hv).table]
  unfold LiveView.put
  by_cases hi : i = view.before.length
  · rw [if_pos hi, hi]
    simp
  · rw [if_neg hi]
    rcases Nat.lt_or_gt_of_ne hi with hlt | hgt
    · rw [List.getElem?_append_left hlt, List.getElem?_append_left hlt]
    · have hpos : 0 < i - view.before.length := by omega
      rw [List.getElem?_append_right hgt.le, List.getElem?_append_right hgt.le]
      obtain ⟨k, hk⟩ := Nat.exists_eq_succ_of_ne_zero hpos.ne'
      rw [hk, Nat.succ_eq_add_one, List.getElem?_cons_succ, List.getElem?_cons_succ]

theorem fencedRecord_state (now : Timestamp) (detail : Text) (live : Intervention) :
    (fencedRecord now detail live).state = .fenced := by
  unfold fencedRecord
  cases h : transition live .fenced live.updatedAt detail with
  | ok moved => exact (transition_sameRecord h).2
  | error e => rfl

/-! ### The table an evaluation leaves -/

theorem countedState_interventions (g : Governor) (bundle : EvidenceBundle) :
    (g.countedState bundle).interventions = g.state.interventions := by
  unfold countedState
  simp only
  split_ifs <;> rfl

theorem putLive_eq {view : LiveView} (h : g.liveView = some view) (record : Intervention) :
    g.putLive record = view.put record := by
  simp [putLive, h]

theorem putLive_length (g : Governor) (record : Intervention) :
    (g.putLive record).length = g.state.interventions.length := by
  unfold putLive
  cases hv : g.liveView with
  | none => rfl
  | some view =>
    have ht := congrArg List.length (liveView_splits hv).table
    rw [LiveView.put_length] at ht ⊢
    exact ht.symm

/-- Nothing of a bounded table is trimmed behind a record put at the live position. -/
theorem trim_putLive (hinv : tableBounded g) {view : LiveView} (hv : g.liveView = some view)
    (record : Intervention) : trimInterventions (g.putLive record) = view.put record := by
  have hlength : (g.putLive record).length ≤ kMaxInterventions :=
    (putLive_length g record).trans_le hinv
  rw [trimInterventions_of_length_le hlength, putLive_eq hv]

/-- The table an effect leaves: the live record replaced, or a new one appended. -/
theorem effectState_interventions (g : Governor) (bundle : EvidenceBundle) (effect : Effect) :
    (g.effectState bundle effect).interventions =
      match effect with
      | .issue record => g.state.interventions ++ [record]
      | .hold record | .carryOn record | .recover record | .relax record
      | .retireUnfounded record => g.putLive record
      | .noAction (some live) => g.putLive live
      | .noAction none => g.state.interventions := by
  cases effect with
  | issue record => simp [effectState, countedState_interventions]
  | noAction live => cases live <;> simp [effectState, countedState_interventions]
  | _ => rfl

theorem trimInterventions_length {table : List Intervention}
    (h : (table.filter fun intervention => intervention.live).length ≤ kMaxInterventions) :
    (trimInterventions table).length ≤ kMaxInterventions := by
  unfold trimInterventions
  split
  · assumption
  · simp only [List.length_append, List.length_take]
    omega

theorem validate_table_le {state : GovernorState} (h : state.validate = .ok ()) :
    state.interventions.length ≤ kMaxInterventions := by
  unfold GovernorState.validate at h
  by_contra hlt
  rw [if_pos (Nat.lt_of_not_le hlt)] at h
  by_cases hh : state.history.length > kMaxWindowHistory
  · rw [if_pos hh] at h
    contradiction
  · rw [if_neg hh] at h
    contradiction

end Governor

end IncastGovernor
