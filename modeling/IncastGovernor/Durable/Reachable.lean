import IncastGovernor.Durable.RoundTrip
import IncastGovernor.Governor.Representation
import IncastGovernor.Mitigate.Shape

/-! The states of a run can be encoded. Under a validated policy a window publishes basis
points that no clamp has touched and lists within their bounds; a state that is restored
has to be one that can be encoded itself, and an issue has to leave an identity for the next
one: the absent identity it wraps to is not decoded. -/

namespace IncastGovernor

/-! ### Basis points that are not clamped -/

theorem of_unclamped {value : UInt32} (h : value ≤ BasisPoints.kMax) :
    (BasisPoints.of value).clamped = false := by
  unfold BasisPoints.of
  rw [dif_neg (UInt32.not_lt.mpr h)]

theorem ratioBp_unclamped (numerator denominator : UInt64) :
    (ratioBp numerator denominator).clamped = false := by
  unfold ratioBp
  by_cases hzero : denominator = 0
  · rw [if_pos hzero]
    rfl
  rw [if_neg hzero]
  dsimp only
  by_cases hscaled : saturatingMul numerator 10000 = u64Max
  · rw [if_pos hscaled]
    rfl
  · rw [if_neg hscaled]
    apply of_unclamped
    split_ifs with hcapped
    · decide
    · have hle := UInt64.le_iff_toNat_le.mp (UInt64.not_lt.mp hcapped)
      rw [UInt32.le_iff_toNat_le, UInt64.toNat_toUInt32]
      exact Nat.le_trans (Nat.mod_le _ _) hle

theorem clampBp_le {low high : UInt32} (h : low ≤ high) (value : UInt64) :
    clampBp value low high ≤ high := by
  unfold clampBp
  rw [if_neg (UInt32.not_lt.mpr h)]
  simp only
  split_ifs with hlow hhigh
  · exact h
  · exact UInt32.le_refl _
  · have hle := UInt64.le_iff_toNat_le.mp (UInt64.not_lt.mp hhigh)
    rw [UInt32.le_iff_toNat_le, UInt64.toNat_toUInt32]
    exact Nat.le_trans (Nat.mod_le _ _) hle

theorem metrics_unclamped (bundle : EvidenceBundle) (policy : GovernorPolicy) :
    (computeMetrics bundle policy).oversubscriptionBp.clamped = false ∧
      (computeMetrics bundle policy).queuePressureBp.clamped = false := by
  unfold computeMetrics
  refine ⟨ratioBp_unclamped _ _, ?_⟩
  simp only
  split_ifs
  · exact ratioBp_unclamped _ _
  · rfl

/-! ### Sized intents -/

theorem affectedClasses_length (selected : List SenderContribution) :
    (affectedClasses selected).length ≤ kServiceClassCount :=
  ((affectedClasses_nodup selected).subperm
    (fun service _ => service.mem_all : affectedClasses selected ⊆ ServiceClass.all)).length_le

/-- What an encoding asks of the bounds of a policy. -/
structure MitigationBounds.Encodable (bounds : MitigationBounds) : Prop where
  ordered : bounds.minReductionBp ≤ bounds.maxReductionBp
  reduction : bounds.maxReductionBp ≤ BasisPoints.kMax
  admission : bounds.maxAdmissionReductionBp ≤ BasisPoints.kMax
  senders : bounds.maxPenalizedSenders.toNat ≤ kMaxPenalizedSenders

theorem bounds_encodable {policy : GovernorPolicy} (h : policy.validate = .ok ()) :
    policy.bounds.Encodable := by
  obtain ⟨hbounds, hsenders⟩ := GovernorPolicy.bounds_and_senders_of_validate h
  exact ⟨hbounds.reduction_le, UInt32.le_trans hbounds.reduction_whole (by decide),
    UInt32.le_trans hbounds.admission_whole (by decide), hsenders⟩

/-- What the encoding of a sized action asks of its action. -/
structure SizedAction.Encodable (action : SizedAction) : Prop where
  reduction : action.reductionBp ≤ BasisPoints.kMax
  admission : action.admissionBp ≤ BasisPoints.kMax
  affected : action.affectedClasses.length ≤ kServiceClassCount

theorem sizeAction_encodable {policy : GovernorPolicy} {classification : Classification}
    {action : SizedAction} (hb : policy.bounds.Encodable)
    (h : sizeAction policy classification = some action) : action.Encodable := by
  unfold sizeAction at h
  simp only at h
  split_ifs at h
  · rw [← Option.some.inj h]
    exact ⟨UInt32.zero_le, UInt32.zero_le, Nat.zero_le _⟩
  · rw [← Option.some.inj h]
    exact ⟨UInt32.le_trans (clampBp_le hb.ordered _) hb.reduction, UInt32.zero_le,
      affectedClasses_length _⟩
  · rw [← Option.some.inj h]
    refine ⟨UInt32.zero_le, UInt32.le_trans (clampBp_le ?_ _) hb.admission, Nat.zero_le _⟩
    show (if _ then _ else _) ≤ policy.bounds.maxAdmissionReductionBp
    split_ifs with hle
    · exact hle
    · exact UInt32.le_refl _

/-- A clamp leaves what can be encoded, whatever the list it cuts. -/
theorem clampToBounds_encodable {bounds : MitigationBounds} (hb : bounds.Encodable)
    {intent : MitigationIntent} (hreduction : intent.reductionBp.clamped = false)
    (hadmission : intent.admissionReductionBp.clamped = false)
    (haggregate : intent.aggregateReductionBp.clamped = false)
    (haffected : intent.affectedClasses.length ≤ kServiceClassCount) :
    (intent.clampToBounds bounds).Encodable where
  reduction := by
    unfold MitigationIntent.clampToBounds
    simp only
    split_ifs
    · exact of_unclamped hb.reduction
    · exact hreduction
  admission := by
    unfold MitigationIntent.clampToBounds
    simp only
    split_ifs
    · exact of_unclamped hb.admission
    · exact hadmission
  aggregate := haggregate
  penalized := by
    rw [MitigationIntent.clampToBounds_penalizedSenders, List.length_take]
    exact Nat.le_trans (Nat.min_le_left _ _) hb.senders
  affected := haffected

/-- The expiry and the generation of an intent are not bounded. -/
theorem MitigationIntent.Encodable.of_stamped {intent stamped : MitigationIntent}
    (h : intent.Encodable) (hs : stamped = { intent with
      expiresAt := stamped.expiresAt, generation := stamped.generation }) : stamped.Encodable := by
  rw [hs]
  exact ⟨h.reduction, h.admission, h.aggregate, h.penalized, h.affected⟩

theorem actionIntent_encodable {request : SynthesisRequest} {bundle : EvidenceBundle}
    {policy : GovernorPolicy} {classification : Classification} {action : SizedAction}
    (hb : policy.bounds.Encodable) (ha : action.Encodable) :
    (actionIntent request bundle policy classification action).Encodable := by
  unfold actionIntent finishIntent
  split_ifs
  · exact (clampToBounds_encodable hb (of_unclamped ha.reduction) (of_unclamped ha.admission) rfl
      ha.affected).of_stamped rfl
  · exact (clampToBounds_encodable hb (of_unclamped ha.reduction) (of_unclamped ha.admission) rfl
      ha.affected).of_stamped rfl

theorem retiredIntent_encodable {bounds : MitigationBounds} {issued : Timestamp}
    {prior : MitigationIntent} (h : prior.Encodable) :
    (retiredIntent bounds issued prior).Encodable :=
  ⟨rfl, rfl, h.aggregate, Nat.zero_le _, Nat.zero_le _⟩

theorem relaxedIntent_encodable {bounds : MitigationBounds} {issued : Timestamp} {step : UInt32}
    {prior : MitigationIntent} (hb : bounds.Encodable) (h : prior.Encodable)
    (hstep : ¬recoveryCompletes bounds step prior) :
    (relaxedIntent bounds issued step prior).Encodable := by
  have hlt : step < prior.reductionBp.value := UInt32.not_le.mp fun hle => hstep (Or.inl hle)
  have hle : prior.reductionBp.value - step ≤ BasisPoints.kMax := by
    have hvalue := UInt32.le_iff_toNat_le.mp prior.reductionBp.value_le
    rw [UInt32.le_iff_toNat_le, UInt32.toNat_sub_of_le _ _ (UInt32.le_of_lt hlt)]
    omega
  have hclamped := @clampToBounds_encodable bounds hb { prior with
    reductionBp := BasisPoints.of (prior.reductionBp.value - step)
    relaxesPrior := true
    continuesPrior := true
    issuedAt := issued } (of_unclamped hle) h.admission h.aggregate h.affected
  exact hclamped.of_stamped rfl

/-! ### Records -/

/-- What the encoding of a record asks of it is that of another one. -/
structure Intervention.SameBounds (moved record : Intervention) : Prop where
  id : moved.id = record.id
  intent : moved.intent = record.intent
  applied : moved.appliedReductionBp = record.appliedReductionBp
  detail : moved.refusalDetail = record.refusalDetail

theorem Intervention.SameBounds.encodable {moved record : Intervention}
    (h : moved.SameBounds record) (hr : record.Encodable) : moved.Encodable := by
  refine ⟨?_, ?_, ?_, ?_, ?_⟩
  · rw [h.id]
    exact hr.id
  · rw [h.intent]
    exact hr.bounded
  · rw [h.intent]
    exact hr.intent
  · rw [h.applied]
    exact hr.applied
  · rw [h.detail]
    exact hr.detail

theorem Intervention.SameBounds.trans {a b c : Intervention} (h : a.SameBounds b)
    (h' : b.SameBounds c) : a.SameBounds c :=
  ⟨h.id.trans h'.id, h.intent.trans h'.intent, h.applied.trans h'.applied,
    h.detail.trans h'.detail⟩

/-- A record with another intent, and with its reduction. -/
theorem Intervention.Encodable.of_published {moved record : Intervention} (h : record.Encodable)
    (hid : moved.id = record.id) (hdetail : moved.refusalDetail = record.refusalDetail)
    (hbounded : moved.intent.bounded = true) (hintent : moved.intent.Encodable)
    (happlied : moved.appliedReductionBp = moved.intent.reductionBp ∨
      moved.appliedReductionBp = record.appliedReductionBp) : moved.Encodable where
  id := by
    rw [hid]
    exact h.id
  bounded := hbounded
  intent := hintent
  applied := by
    rcases happlied with ha | ha
    · rw [ha]
      exact hintent.reduction
    · rw [ha]
      exact h.applied
  detail := by
    rw [hdetail]
    exact h.detail

namespace Governor

theorem MovedTo.sameBounds {target : InterventionState} {record moved : Intervention}
    (h : MovedTo target record moved) : moved.SameBounds record :=
  ⟨h.same.id, h.same.intent, h.same.appliedReductionBp, h.refusalDetail⟩

theorem tryTransition_sameBounds (record : Intervention) (target : InterventionState)
    (now : Timestamp) (detail : Text) (ht : target ≠ .refused) :
    (tryTransition record target now detail).SameBounds record := by
  unfold tryTransition
  cases hm : transition record target now detail with
  | ok moved => exact MovedTo.sameBounds (transition_movedTo hm ht)
  | error e => exact ⟨rfl, rfl, rfl, rfl⟩

theorem reactivatedRecord_sameBounds (now : Timestamp) (live : Intervention) :
    (reactivatedRecord now live).SameBounds live := by
  unfold reactivatedRecord
  split_ifs
  · have h := tryTransition_sameBounds live .active now (ascii "revalidated") (by decide)
    exact ⟨h.id, h.intent, h.applied, h.detail⟩
  · have h := tryTransition_sameBounds live .active now (ascii "re-escalated") (by decide)
    exact ⟨h.id, h.intent, h.applied, h.detail⟩
  · exact ⟨rfl, rfl, rfl, rfl⟩

variable {g : Governor} {bundle : EvidenceBundle}

theorem synthesis_encodable_of_acts (hb : g.config.policy.bounds.Encodable)
    (h : g.accepts bundle) (ha : g.actsOnIncident bundle) :
    (g.synthesis bundle).intent.Encodable := by
  obtain ⟨action, hs, hintent⟩ := synthesis_intent_of_acts h ha
  rw [hintent]
  exact actionIntent_encodable hb (sizeAction_encodable hb hs)

theorem synthesis_encodable_of_recovery {live : Intervention}
    (hb : g.config.policy.bounds.Encodable) (hg : g.Governs bundle live)
    (hk : (g.windowClassification bundle).kind = .recovery)
    (ha : (g.synthesis bundle).authority.interventionAuthorized = true)
    (hl : live.intent.Encodable) : (g.synthesis bundle).intent.Encodable := by
  rw [synthesis_intent_of_recovery hg hk ha]
  simp only
  split_ifs with hc
  · exact retiredIntent_encodable hl
  · exact relaxedIntent_encodable hb hl hc

theorem encodable_of_moves (hb : g.config.policy.bounds.Encodable) {operation : Operation}
    {record moved : Intervention} (h : Moves g operation record moved) (hr : record.Encodable) :
    moved.Encodable := by
  have hbounded := bounded_of_moves h hr.bounded
  have hid := (moves_binding h).1
  cases h with
  | kept => exact hr
  | revalidated policy now =>
    by_cases hl : record.live
    · exact (MovedTo.sameBounds (revalidateRecord_live policy now hl)).encodable hr
    · rw [revalidateRecord_dead policy now hl]
      exact hr
  | retired id now reason _ _ hm =>
    exact (MovedTo.sameBounds (transition_movedTo hm (by decide))).encodable hr
  | stopped now =>
    by_cases hl : record.live
    · exact (MovedTo.sameBounds (shutdownRecord_live now hl)).encodable hr
    · rw [shutdownRecord_dead now hl]
      exact hr
  | fenced bundle _ detail =>
    exact (MovedTo.sameBounds (fencedRecord_movedTo (g.instant bundle) detail record)).encodable hr
  | held bundle =>
    exact hr.of_published hid rfl hbounded (hr.intent.of_stamped rfl) (Or.inr rfl)
  | continued bundle _ hg ha =>
    have hsame := reactivatedRecord_sameBounds (g.instant bundle) record
    have hintent := synthesis_encodable_of_acts hb hg.accepts ha
    exact hr.of_published hid hsame.detail hbounded (hintent.of_stamped rfl) (Or.inl rfl)
  | recovered bundle _ hg hk ha =>
    have hintent := synthesis_encodable_of_recovery hb hg hk ha hr.intent
    have hfirst := tryTransition_sameBounds record .relaxing (g.instant bundle)
      (ascii "recovery retired") (by decide)
    have hsecond := tryTransition_sameBounds
      { tryTransition record .relaxing (g.instant bundle) (ascii "recovery retired") with
        state := InterventionState.relaxing } .retired (g.instant bundle)
      (ascii "recovery complete") (by decide)
    exact hr.of_published hid (hsecond.detail.trans hfirst.detail) hbounded hintent
      (Or.inr (hsecond.applied.trans hfirst.applied))
  | relaxed bundle _ hg hk ha =>
    have hintent := synthesis_encodable_of_recovery hb hg hk ha hr.intent
    have hdetail : (relaxedRecord (g.instant bundle) (g.synthesis bundle).intent
        record).refusalDetail = record.refusalDetail := by
      unfold relaxedRecord
      split_ifs
      · exact (tryTransition_sameBounds record .relaxing (g.instant bundle)
          (ascii "recovery step") (by decide)).detail
      · rfl
    exact hr.of_published hid hdetail hbounded hintent (Or.inl rfl)
  | unfounded bundle =>
    have hsame := tryTransition_sameBounds record .retired (g.instant bundle)
      (ascii "revalidation found no incident") (by decide)
    exact Intervention.SameBounds.encodable ⟨hsame.id, hsame.intent, hsame.applied, hsame.detail⟩ hr

theorem issuedRecord_encodable (hb : g.config.policy.bounds.Encodable) (h : g.Issues bundle)
    (hn : g.state.nextInterventionGeneration.value ≠ 0) : (g.issuedRecord bundle).Encodable := by
  have hintent : (g.issuedRecord bundle).intent.Encodable := by
    rw [issuedRecord_intent]
    exact synthesis_encodable_of_acts hb h.accepts h.acts
  have hbounded : (g.issuedRecord bundle).intent.bounded = true := by
    rw [issuedRecord_intent]
    exact synthesis_bounded_of_acts h.accepts h.acts
  have hsame : ∀ proposed : Intervention,
      ({ tryTransition (tryTransition proposed .authorized (g.instant bundle) []) .active
        (g.instant bundle) [] with state := InterventionState.active } :
          Intervention).SameBounds proposed := by
    intro proposed
    have hfirst := tryTransition_sameBounds proposed .authorized (g.instant bundle) [] (by decide)
    have hsecond := tryTransition_sameBounds
      (tryTransition proposed .authorized (g.instant bundle) []) .active (g.instant bundle) []
      (by decide)
    have hboth := hsecond.trans hfirst
    exact ⟨hboth.id, hboth.intent, hboth.applied, hboth.detail⟩
  refine ⟨?_, hbounded, hintent, ?_, ?_⟩
  · show (g.issuedRecord bundle).id.value ≠ 0
    rw [issuedRecord_id h]
    exact hn
  · have happlied : (g.issuedRecord bundle).appliedReductionBp =
        (g.synthesis bundle).intent.reductionBp := (hsame _).applied
    rw [happlied, ← issuedRecord_intent]
    exact hintent.reduction
  · have hdetail : (g.issuedRecord bundle).refusalDetail = [] := (hsame _).detail
    rw [hdetail]
    exact Nat.zero_le _

theorem restoreRecord_encodable {record : Intervention} (now : Timestamp) (h : record.Encodable) :
    (restoreRecord now record).Encodable := by
  by_cases hl : record.live
  · exact (MovedTo.sameBounds (restoreRecord_live now hl)).encodable h
  · rw [restoreRecord_dead now hl]
    exact h

/-! ### Windows -/

theorem windowRecord_encodable (g : Governor) (bundle : EvidenceBundle) :
    (g.windowRecord bundle).Encodable := by
  have hmetrics : (g.windowClassification bundle).metrics = (g.classified bundle).metrics :=
    (windowClassification_fields g bundle).2.2.1
  have hclassified : (g.classified bundle).metrics.oversubscriptionBp.clamped = false ∧
      (g.classified bundle).metrics.queuePressureBp.clamped = false := by
    unfold classified classify
    simp only
    split_ifs <;> exact metrics_unclamped bundle g.config.policy
  constructor
  · show (g.windowClassification bundle).metrics.oversubscriptionBp.clamped = false
    rw [hmetrics]
    exact hclassified.1
  · show (g.windowClassification bundle).metrics.queuePressureBp.clamped = false
    rw [hmetrics]
    exact hclassified.2

/-! ### Operations -/

/-- A restored state that is accepted can be encoded itself. -/
def restoresEncodable : Operation → Prop
  | .restoreState state => state.validate = .ok () → state.Encodable
  | _ => True

theorem next_step (hs : g.state.Encodable) {operation : Operation}
    (hr : restoresEncodable operation) (he : ¬g.exhaustsIdentities operation) :
    (g.step operation).state.nextInterventionGeneration.value ≠ 0 := by
  have htable := step_table g operation
  generalize (g.step operation).state.interventions = table at htable
  generalize (g.step operation).state.nextInterventionGeneration = next at htable ⊢
  cases htable with
  | moved => exact hs.next
  | committed => exact hs.next
  | issued h =>
    have hlast : ¬lastIdentity g.state.nextInterventionGeneration := fun hn => he ⟨h, hn⟩
    intro hzero
    exact hlast (Or.inr (not_not.mpr hzero))
  | restored hv => exact (hr hv).next
  | reset => decide

theorem records_step (hb : g.config.policy.bounds.Encodable) (hs : g.state.Encodable)
    {operation : Operation} (hr : restoresEncodable operation) :
    ∀ record ∈ (g.step operation).state.interventions, record.Encodable := by
  have htable := step_table g operation
  generalize (g.step operation).state.interventions = table at htable ⊢
  generalize (g.step operation).state.nextInterventionGeneration = next at htable
  have hmoved : ∀ {operation : Operation} {after : List Intervention},
      List.Forall₂ (Moves g operation) g.state.interventions after →
        ∀ record ∈ after, record.Encodable := by
    intro operation after h record hm
    obtain ⟨source, hsource, hmoves⟩ := exists_source h hm
    exact encodable_of_moves hb hmoves (hs.records source hsource)
  cases htable with
  | moved h => exact hmoved h
  | committed h => exact fun record hm => hmoved h record (trimInterventions_subset _ hm)
  | issued h =>
    intro record hm
    rcases List.mem_append.mp (trimInterventions_subset _ hm) with hold | hnew
    · exact hs.records record hold
    · rw [List.mem_singleton.mp hnew]
      exact issuedRecord_encodable hb h hs.next
  | @restored state hv =>
    intro moved hm
    obtain ⟨record, hrecord, rfl⟩ := List.mem_map.mp hm
    exact restoreRecord_encodable state.lastEvaluation ((hr hv).records record hrecord)
  | reset => exact fun record hm => absurd hm List.not_mem_nil

theorem windows_step (hs : g.state.Encodable) {operation : Operation}
    (hr : restoresEncodable operation) :
    (g.step operation).state.history.length ≤ kMaxWindowHistory ∧
      ∀ record ∈ (g.step operation).state.history, record.Encodable := by
  have hby := step_history g operation
  generalize (g.step operation).state.history = history at hby ⊢
  cases hby with
  | kept => exact ⟨hs.history, hs.windows⟩
  | recorded bundle =>
    refine ⟨Nat.le_trans (trimHistory_length _ _) (Nat.min_le_right _ _), fun record hm => ?_⟩
    rcases List.mem_append.mp (trimHistory_subset _ _ hm) with hold | hnew
    · exact hs.windows record hold
    · rw [List.mem_singleton.mp hnew]
      exact windowRecord_encodable g bundle
  | restored hv => exact ⟨(hr hv).history, (hr hv).windows⟩
  | reset => exact ⟨Nat.zero_le _, fun record hm => absurd hm List.not_mem_nil⟩

theorem encodable_step (hb : g.config.policy.bounds.Encodable) (hs : g.state.Encodable)
    {operation : Operation} (hr : restoresEncodable operation)
    (he : ¬g.exhaustsIdentities operation) : (g.step operation).state.Encodable where
  next := next_step hs hr he
  history := (windows_step hs hr).1
  table := tableBounded_step g operation hs.table
  windows := (windows_step hs hr).2
  records := records_step hb hs hr

/-! ### Runs -/

/-- The invariant of a run: the policy is a validated one, and the state can be encoded. -/
structure Reached (g : Governor) : Prop where
  policy : g.config.policy.validate = .ok ()
  state : g.state.Encodable

theorem policyAfter_validate {operation : Operation} (h : g.config.policy.validate = .ok ()) :
    (g.policyAfter operation).validate = .ok () := by
  cases operation with
  | configurePolicy policy now =>
    show (if policy.validate = .ok () then policy else g.config.policy).validate = .ok ()
    split_ifs with hv
    · exact hv
    · exact h
  | _ => exact h

theorem reached_create {config : GovernorConfig} (h : config.policy.validate = .ok ()) :
    Reached (create config) := by
  have hnext : (1 : UInt64) ≠ 0 := by decide
  refine ⟨h, ⟨hnext, Nat.zero_le _, Nat.zero_le _, fun record hm => ?_, fun record hm => ?_⟩⟩
  · cases hm
  · cases hm

theorem reached_step (hg : Reached g) {operation : Operation} (hr : restoresEncodable operation)
    (he : ¬g.exhaustsIdentities operation) : Reached (g.step operation) := by
  refine ⟨?_, encodable_step (bounds_encodable hg.policy) hg.state hr he⟩
  rw [(step_config g operation).2]
  exact policyAfter_validate hg.policy

theorem encodable_of_restored {state : GovernorState} (h : (restored state).Encodable) :
    state.Encodable := by
  have hlength := (List.length_map (restoreRecord state.lastEvaluation)).symm.trans_le h.table
  refine ⟨h.next, h.history, hlength, h.windows, fun record hm => ?_⟩
  have hrestored := h.records _ (List.mem_map_of_mem hm)
  by_cases hl : record.live
  · have hsame := MovedTo.sameBounds (restoreRecord_live state.lastEvaluation hl)
    exact Intervention.SameBounds.encodable ⟨hsame.id.symm, hsame.intent.symm, hsame.applied.symm,
      hsame.detail.symm⟩ hrestored
  · rwa [restoreRecord_dead state.lastEvaluation hl] at hrestored

/-- An operation that leaves a state that can be encoded met the condition. -/
theorem condition_of_encodable {operation : Operation} (hs : g.state.Encodable)
    (h : (g.step operation).state.Encodable) :
    restoresEncodable operation ∧ ¬g.exhaustsIdentities operation := by
  cases operation with
  | evaluate bundle =>
    refine ⟨trivial, fun he => ?_⟩
    have hnext := h.next
    rw [show (g.step (.evaluate bundle)).state.nextInterventionGeneration = _ from
      (evaluate_of_issues he.1).2] at hnext
    rcases he.2 with hzero | hwrapped
    · exact hzero hs.next
    · exact hwrapped hnext
  | restoreState state =>
    refine ⟨fun hv => ?_, id⟩
    have hby := restoreState_by g state
    have hstate : (g.restoreState state).2.state.Encodable := h
    generalize g.restoreState state = result at hby hstate
    cases hby with
    | refused error he =>
      rw [hv] at he
      cases he
    | restored => exact encodable_of_restored hstate
  | _ => exact ⟨trivial, id⟩

/-- All states along a run are decoded from their encodings. -/
def runRoundTrips (config : GovernorConfig) (operations : List Operation) : Prop :=
  ∀ reached, reached <+: operations →
    (Foundation.run step (create config) reached).state.roundTrips

/-- Over every run under validated policies, all states are decoded from their encodings
exactly when the run restores only states that can be encoded, and never issues under the
last identity. -/
theorem run_states_round_trip_iff (config : GovernorConfig)
    (hpolicy : config.policy.validate = .ok ()) (operations : List Operation) :
    runRoundTrips config operations ↔
      ∀ call ∈ calls config operations, restoresEncodable call.2 ∧
        ¬call.1.exhaustsIdentities call.2 := by
  have hcreated := reached_create hpolicy
  unfold runRoundTrips calls
  refine Foundation.prefixes_iff_calls
    (I := fun g : Governor => g.config.policy.validate = .ok ())
    (P := fun g : Governor => g.state.roundTrips)
    (C := fun g operation => restoresEncodable operation ∧ ¬g.exhaustsIdentities operation)
    (fun g operation _ hg => ?_) (fun g operation _ hg hs => ?_) hpolicy
    (roundTrips_iff.mpr hcreated.state)
  · rw [(step_config g operation).2]
    exact policyAfter_validate hg
  · have hstate := roundTrips_iff.mp hs
    constructor
    · exact fun hnext => condition_of_encodable hstate (roundTrips_iff.mp hnext)
    · rintro ⟨hr, he⟩
      exact roundTrips_iff.mpr (reached_step ⟨hg, hstate⟩ hr he).state

/-- The states of an incident that is stored and restored. -/
theorem run_states_round_trip_incident :
    runRoundTrips sampleConfig [.evaluate incidentWindow, .restoreState exhaustedState] :=
  (run_states_round_trip_iff sampleConfig (by decide +kernel) _).mpr (by
    intro call hcall
    rcases List.mem_cons.mp hcall with rfl | hcall
    · exact ⟨trivial, fun he => absurd he.2 (by decide)⟩
    · rw [List.mem_singleton.mp hcall]
      exact ⟨fun _ => by decide +kernel, id⟩)

/-- The issue under the last identity leaves a state that is not decoded. -/
theorem exhausted_state_not_decoded :
    sampleConfig.policy.validate = .ok () ∧ exhaustedState.roundTrips ∧
      ¬(Foundation.run step (create sampleConfig) exhaustedRun).state.roundTrips := by
  decide +kernel

end Governor

end IncastGovernor
