import IncastGovernor.Governor.Steps

/-! Intents within the bounds of the policy in force. A window that synthesizes an intent
clamps it under the policy it finds; a hold publishes the live intent again as it is. A
policy of another id or generation sends the live record to revalidation first, so a hold
meets bounds its intent was not clamped to only when the same document comes with
smaller ones. -/

namespace IncastGovernor

/-- The magnitudes of an intent are within bounds. -/
structure MitigationIntent.Respects (intent : MitigationIntent) (bounds : MitigationBounds) :
    Prop where
  reduction : intent.reductionBp.value ≤ bounds.maxReductionBp
  admission : intent.admissionReductionBp.value ≤ bounds.maxAdmissionReductionBp
  headroom : intent.headroomBytes.count ≤ bounds.maxHeadroomBytes.count
  stagger : intent.staggerSlots ≤ bounds.maxStaggerSlots
  penalized : intent.penalizedSenders.length ≤ bounds.maxPenalizedSenders.toNat
  duration_ge : bounds.minDuration ≤ intent.duration
  duration_le : intent.duration ≤ bounds.maxDuration

instance (intent : MitigationIntent) (bounds : MitigationBounds) :
    Decidable (intent.Respects bounds) :=
  decidable_of_iff
    (intent.reductionBp.value ≤ bounds.maxReductionBp ∧
      intent.admissionReductionBp.value ≤ bounds.maxAdmissionReductionBp ∧
      intent.headroomBytes.count ≤ bounds.maxHeadroomBytes.count ∧
      intent.staggerSlots ≤ bounds.maxStaggerSlots ∧
      intent.penalizedSenders.length ≤ bounds.maxPenalizedSenders.toNat ∧
      bounds.minDuration ≤ intent.duration ∧ intent.duration ≤ bounds.maxDuration)
    ⟨fun h => ⟨h.1, h.2.1, h.2.2.1, h.2.2.2.1, h.2.2.2.2.1, h.2.2.2.2.2.1, h.2.2.2.2.2.2⟩,
      fun h => ⟨h.reduction, h.admission, h.headroom, h.stagger, h.penalized, h.duration_ge,
        h.duration_le⟩⟩

/-! ### Clamped intents -/

section Clamp

variable {bounds : MitigationBounds}

theorem clampToBounds_respects (h : bounds.minDuration ≤ bounds.maxDuration)
    (intent : MitigationIntent) : (intent.clampToBounds bounds).Respects bounds where
  reduction := by
    rw [UInt32.le_iff_toNat_le, MitigationIntent.clampToBounds_reductionBp]
    exact min_le_right _ _
  admission := by
    rw [UInt32.le_iff_toNat_le, MitigationIntent.clampToBounds_admissionReductionBp]
    exact min_le_right _ _
  headroom := by
    simp only [MitigationIntent.clampToBounds]
    split_ifs with hh
    · exact UInt64.le_refl _
    · exact UInt64.not_lt.mp hh
  stagger := by
    simp only [MitigationIntent.clampToBounds]
    split_ifs with hs
    · exact UInt32.le_refl _
    · exact UInt32.not_lt.mp hs
  penalized := by
    rw [MitigationIntent.clampToBounds_penalizedSenders, List.length_take]
    exact Nat.min_le_left _ _
  duration_ge := by
    simp only [MitigationIntent.clampToBounds]
    by_cases hraised : intent.duration < bounds.minDuration
    · rw [if_pos hraised]
      split_ifs
      · exact h
      · exact Int64.le_refl _
    · rw [if_neg hraised]
      split_ifs
      · exact h
      · exact Int64.not_lt.mp hraised
  duration_le := by
    simp only [MitigationIntent.clampToBounds]
    split_ifs with _ hlast hlast
    · exact Int64.le_refl _
    · exact Int64.not_lt.mp hlast
    · exact Int64.le_refl _
    · exact Int64.not_lt.mp hlast

theorem retiredIntent_respects (h : bounds.minDuration ≤ bounds.maxDuration) (issued : Timestamp)
    (prior : MitigationIntent) : (retiredIntent bounds issued prior).Respects bounds where
  reduction := UInt32.zero_le
  admission := UInt32.zero_le
  headroom := UInt64.zero_le
  stagger := UInt32.zero_le
  penalized := Nat.zero_le _
  duration_ge := Int64.le_refl _
  duration_le := h

/-- The expiry and the generation of an intent are no magnitudes. -/
theorem MitigationIntent.Respects.of_magnitudes {intent stamped : MitigationIntent}
    (h : intent.Respects bounds) (hs : stamped = { intent with
      expiresAt := stamped.expiresAt, generation := stamped.generation }) :
    stamped.Respects bounds := by
  rw [hs]
  exact ⟨h.reduction, h.admission, h.headroom, h.stagger, h.penalized, h.duration_ge,
    h.duration_le⟩

theorem relaxedIntent_respects (h : bounds.minDuration ≤ bounds.maxDuration) (issued : Timestamp)
    (step : UInt32) (prior : MitigationIntent) :
    (relaxedIntent bounds issued step prior).Respects bounds :=
  (clampToBounds_respects h _).of_magnitudes rfl

theorem actionIntent_respects {request : SynthesisRequest} {bundle : EvidenceBundle}
    {policy : GovernorPolicy} {classification : Classification} {action : SizedAction}
    (h : policy.bounds.minDuration ≤ policy.bounds.maxDuration) :
    (actionIntent request bundle policy classification action).Respects policy.bounds :=
  (clampToBounds_respects h _).of_magnitudes rfl

end Clamp

namespace Governor

variable {g : Governor} {bundle : EvidenceBundle}

/-! ### Published intents -/

theorem synthesis_respects_of_acts (hd : g.config.policy.bounds.minDuration ≤
      g.config.policy.bounds.maxDuration) (h : g.accepts bundle) (ha : g.actsOnIncident bundle) :
    (g.synthesis bundle).intent.Respects g.config.policy.bounds := by
  obtain ⟨action, _, hintent⟩ := synthesis_intent_of_acts h ha
  rw [hintent]
  exact actionIntent_respects hd

theorem synthesis_respects_of_recovery {live : Intervention} (hd : g.config.policy.bounds.minDuration ≤
      g.config.policy.bounds.maxDuration) (hg : g.Governs bundle live)
    (hk : (g.windowClassification bundle).kind = .recovery)
    (ha : (g.synthesis bundle).authority.interventionAuthorized = true) :
    (g.synthesis bundle).intent.Respects g.config.policy.bounds := by
  rw [synthesis_intent_of_recovery hg hk ha]
  simp only
  split_ifs
  · exact retiredIntent_respects hd _ _
  · exact relaxedIntent_respects hd _ _ _

/-! ### Records in force -/

/-- The states in which hysteresis may hold a record. -/
def inForce (record : Intervention) : Prop := record.state = .active ∨ record.state = .relaxing

instance (record : Intervention) : Decidable (inForce record) := by
  delta inForce; infer_instance

theorem live_of_inForce {record : Intervention} (h : inForce record) : record.live := by
  rcases h with h | h
  · exact Or.inr (Or.inl h)
  · exact Or.inr (Or.inr (Or.inl h))

theorem not_inForce_of_state {record : Intervention} {state : InterventionState}
    (h : record.state = state) (hs : state ≠ .active ∧ state ≠ .relaxing) : ¬inForce record := by
  rintro (hf | hf)
  · exact hs.1 (h.symm.trans hf)
  · exact hs.2 (h.symm.trans hf)

/-- The bounds of the policy in force are ordered, and every record in force is within them. -/
structure ForceBounded (g : Governor) : Prop where
  ordered : g.config.policy.bounds.minDuration ≤ g.config.policy.bounds.maxDuration
  records : ∀ record ∈ g.state.interventions, inForce record →
    record.intent.Respects g.config.policy.bounds

theorem continuedRecord_intent (now : Timestamp) (intent : MitigationIntent) (live : Intervention)
    {bounds : MitigationBounds} (h : intent.Respects bounds) :
    (continuedRecord now intent live).intent.Respects bounds := h.of_magnitudes rfl

theorem heldRecord_intent (now : Timestamp) (live : Intervention) {bounds : MitigationBounds}
    (h : live.intent.Respects bounds) : (heldRecord now live).intent.Respects bounds :=
  h.of_magnitudes rfl

/-- What an operation under the same policy moves stays within its bounds. -/
theorem respects_of_moves (hg : ForceBounded g) {operation : Operation}
    {record moved : Intervention} (hm : record ∈ g.state.interventions)
    (h : Moves g operation record moved) (hf : inForce moved) :
    moved.intent.Respects g.config.policy.bounds := by
  cases h with
  | kept => exact hg.records record hm hf
  | revalidated policy now =>
    by_cases hl : record.live
    · exact absurd hf
        (not_inForce_of_state (revalidateRecord_live policy now hl).state (by decide))
    · rw [revalidateRecord_dead policy now hl] at hf
      exact absurd (live_of_inForce hf) hl
  | retired id now reason _ _ ht =>
    exact absurd hf (not_inForce_of_state (transition_movedTo ht (by decide)).state (by decide))
  | stopped now =>
    by_cases hl : record.live
    · exact absurd hf (not_inForce_of_state (shutdownRecord_live now hl).state (by decide))
    · rw [shutdownRecord_dead now hl] at hf
      exact absurd (live_of_inForce hf) hl
  | fenced bundle _ detail =>
    exact absurd hf (not_inForce_of_state
      (fencedRecord_movedTo (g.instant bundle) detail record).state (by decide))
  | held _ _ hl hh => exact heldRecord_intent _ _ (hg.records record hm hh.2.2.2)
  | continued _ _ hl ha =>
    exact continuedRecord_intent _ _ _ (synthesis_respects_of_acts hg.ordered hl.accepts ha)
  | recovered => exact absurd hf (@not_inForce_of_state _ .retired rfl (by decide))
  | relaxed _ _ hl hk ha => exact synthesis_respects_of_recovery hg.ordered hl hk ha
  | unfounded => exact absurd hf (@not_inForce_of_state _ .retired rfl (by decide))

theorem issuedRecord_respects (hg : ForceBounded g) (h : g.Issues bundle) :
    (g.issuedRecord bundle).intent.Respects g.config.policy.bounds := by
  rw [issuedRecord_intent]
  exact synthesis_respects_of_acts hg.ordered h.accepts h.acts

theorem respects_step (hg : ForceBounded g) (operation : Operation) :
    ∀ record ∈ (g.step operation).state.interventions, inForce record →
      record.intent.Respects g.config.policy.bounds := by
  have htable := step_table g operation
  generalize (g.step operation).state.interventions = table at htable ⊢
  generalize (g.step operation).state.nextInterventionGeneration = next at htable
  have hmoved : ∀ {operation : Operation} {after : List Intervention},
      List.Forall₂ (Moves g operation) g.state.interventions after → ∀ record ∈ after,
        inForce record → record.intent.Respects g.config.policy.bounds := by
    intro operation after h record hm hf
    obtain ⟨source, hsource, hmoves⟩ := exists_source h hm
    exact respects_of_moves hg hsource hmoves hf
  cases htable with
  | moved h => exact hmoved h
  | committed h => exact fun record hm => hmoved h record (trimInterventions_subset _ hm)
  | issued h =>
    intro record hm hf
    rcases List.mem_append.mp (trimInterventions_subset _ hm) with hold | hnew
    · exact hg.records record hold hf
    · rw [List.mem_singleton.mp hnew]
      exact issuedRecord_respects hg h
  | @restored state _ =>
    intro moved hm hf
    obtain ⟨record, _, rfl⟩ := List.mem_map.mp hm
    by_cases hl : record.live
    · exact absurd hf
        (not_inForce_of_state (restoreRecord_live state.lastEvaluation hl).state (by decide))
    · rw [restoreRecord_dead state.lastEvaluation hl] at hf
      exact absurd (live_of_inForce hf) hl
  | reset =>
    intro record hm
    cases hm

/-! ### Policies -/

/-- A policy under the recorded id and generation finds a record in force beyond its bounds. -/
def keepsExcess (g : Governor) : Operation → Prop
  | .configurePolicy policy _ =>
    policy.validate = .ok () ∧ ¬g.policyChanged policy ∧
      ∃ record ∈ g.state.interventions, inForce record ∧ ¬record.intent.Respects policy.bounds
  | _ => False

instance (operation : Operation) : Decidable (g.keepsExcess operation) := by
  unfold keepsExcess
  cases operation <;> infer_instance

theorem duration_ordered_of_validate {policy : GovernorPolicy} (h : policy.validate = .ok ()) :
    policy.bounds.minDuration ≤ policy.bounds.maxDuration :=
  Int64.not_lt.mp (GovernorPolicy.bounds_of_validate h).duration_le

/-- An operation that leaves the policy in force keeps its bounds. -/
theorem forceBounded_of_kept (hg : ForceBounded g) {operation : Operation}
    (hp : g.policyAfter operation = g.config.policy) : ForceBounded (g.step operation) := by
  have hpolicy : (g.step operation).config.policy = g.config.policy :=
    (step_config g operation).2.trans hp
  refine ⟨?_, ?_⟩
  · rw [hpolicy]
    exact hg.ordered
  · rw [hpolicy]
    exact respects_step hg operation

theorem forceBounded_step {operation : Operation} (hg : ForceBounded g)
    (he : ¬g.keepsExcess operation) : ForceBounded (g.step operation) := by
  have hkept := @forceBounded_of_kept g hg operation
  have hby := step_by g operation
  generalize g.step operation = after at hby hkept ⊢
  cases hby with
  | policyRefused => exact hg
  | policyKept hv hc =>
    refine ⟨duration_ordered_of_validate hv, fun record hm hf => ?_⟩
    by_contra hn
    exact he ⟨hv, hc, record, hm, hf, hn⟩
  | @policyChanged policy now hv hc =>
    refine ⟨duration_ordered_of_validate hv, fun moved hm hf => ?_⟩
    obtain ⟨record, _, rfl⟩ := List.mem_map.mp hm
    by_cases hl : record.live
    · exact absurd hf
        (not_inForce_of_state (revalidateRecord_live policy now hl).state (by decide))
    · rw [revalidateRecord_dead policy now hl] at hf
      exact absurd (live_of_inForce hf) hl
  | evaluated | bindRefused | bound | retireRefused | retired | restoreRefused | restored | stopped
  | reset => exact hkept rfl

/-! ### Authorized decisions -/

theorem mem_of_governs {live : Intervention} (h : g.Governs bundle live) :
    live ∈ g.state.interventions := by
  obtain ⟨view, hv, rfl⟩ := governs_view h
  rw [(liveView_splits hv).table]
  exact LiveView.mem_put view view.live

/-- An authorized decision publishes an intent within the bounds of the policy in force. -/
theorem authorized_intent_respects (hg : ForceBounded g)
    (ha : (g.evaluate bundle).1.authorized) :
    (g.evaluate bundle).1.intent.Respects g.config.policy.bounds := by
  obtain ⟨h, hf, hauth⟩ := authorized_iff.mp ha
  rw [evaluate_committed h hf, commit_intent]
  have hby := effect_by g bundle
  generalize g.effect bundle = effect at hby hauth ⊢
  cases hby with
  | hold live hl hh =>
    have hrecord := hg.records live (mem_of_governs ⟨h, hf, hl⟩) hh.2.2.2
    exact heldRecord_intent (g.instant bundle) live hrecord
  | issue hl hacts =>
    exact issuedRecord_respects hg ⟨h, hf, (liveRecord_eq_none hf).mp hl, hacts⟩
  | carryOn live _ _ hacts =>
    exact continuedRecord_intent (g.instant bundle) _ live
      (synthesis_respects_of_acts hg.ordered h hacts)
  | recover live hl hk hz => exact synthesis_respects_of_recovery hg.ordered ⟨h, hf, hl⟩ hk hz
  | relax live hl hk hz => exact synthesis_respects_of_recovery hg.ordered ⟨h, hf, hl⟩ hk hz
  | retireUnfounded => exact hauth.elim
  | keep => exact hauth.elim
  | idle => exact hauth.elim

/-! ### Runs -/

theorem forceBounded_create {config : GovernorConfig}
    (h : config.policy.bounds.minDuration ≤ config.policy.bounds.maxDuration) :
    ForceBounded (create config) := by
  refine ⟨h, fun record hm => ?_⟩
  cases hm

/-- Every authorized decision of a run is within the bounds of the policy it is made under. -/
def runIntentsBounded (config : GovernorConfig) (operations : List Operation) : Prop :=
  ∀ call ∈ calls config operations, ∀ bundle, call.2 = .evaluate bundle →
    (call.1.evaluate bundle).1.authorized →
      (call.1.evaluate bundle).1.intent.Respects call.1.config.policy.bounds

/-- In every run from ordered duration bounds that never brings the recorded policy back with
bounds below a record in force, every authorized intent is within bounds. -/
theorem run_intents_bounded (config : GovernorConfig) (operations : List Operation)
    (h : config.policy.bounds.minDuration ≤ config.policy.bounds.maxDuration)
    (hkeeps : ∀ call ∈ calls config operations, ¬call.1.keepsExcess call.2) :
    runIntentsBounded config operations := by
  intro call hcall bundle _ ha
  apply authorized_intent_respects _ ha
  exact @Foundation.calls_invariant_of_calls _ _ step ForceBounded
    (fun g operation => ¬g.keepsExcess operation) (fun g operation => forceBounded_step)
    (create config) (forceBounded_create h) operations hkeeps call hcall

theorem run_intents_bounded_incident :
    runIntentsBounded sampleConfig
      [.evaluate incidentWindow, .configurePolicy samplePolicy ⟨1100000000⟩,
        .evaluate (calmWindow 2 1200000000)] :=
  run_intents_bounded sampleConfig _ (by decide) (by decide +kernel)

/-- A policy with smaller reductions under the same id and generation. -/
def tightenedPolicy : GovernorPolicy :=
  { samplePolicy with
    bounds := { samplePolicy.bounds with minReductionBp := 1, maxReductionBp := 1000 } }

/-- The intervention of the incident, held after the smaller bounds are in force. -/
def tightenedRun : List Operation :=
  [.evaluate incidentWindow, .configurePolicy tightenedPolicy ⟨1100000000⟩,
    .evaluate (calmWindow 2 1200000000)]

/-- A hold publishes an intent beyond the bounds of a validated policy. -/
theorem held_intent_exceeds_bounds :
    ¬∀ (config : GovernorConfig) (operations : List Operation),
      config.policy.validate = .ok () →
        (∀ policy now, .configurePolicy policy now ∈ operations → policy.validate = .ok ()) →
          runIntentsBounded config operations := by
  intro h
  have hrun := h sampleConfig tightenedRun (by decide +kernel) fun policy now hm => by
    rcases List.mem_cons.mp hm with he | hm
    · cases he
    · rcases List.mem_cons.mp hm with he | hm
      · rw [(Operation.configurePolicy.inj he).1]
        decide +kernel
      · cases List.mem_singleton.mp hm
  have hheld := hrun
    (Foundation.run step (create sampleConfig) [.evaluate incidentWindow,
      .configurePolicy tightenedPolicy ⟨1100000000⟩], .evaluate (calmWindow 2 1200000000))
    (List.mem_cons_of_mem _ (List.mem_cons_of_mem _ List.mem_cons_self)) (calmWindow 2 1200000000) rfl
    (by decide +kernel)
  exact absurd hheld (by decide +kernel)

end Governor

end IncastGovernor
