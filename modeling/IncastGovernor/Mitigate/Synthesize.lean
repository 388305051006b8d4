import IncastGovernor.Mitigate.Intent

/-! Synthesis of a bounded intent from a classified window. A refusal leaves the
intent without a kind. A recovery window steps the prior intent down or retires it;
an incident window sizes one action: structural when no rate reduction is required,
sender-scoped when a mitigable population is proved, destination-scoped otherwise. -/

namespace IncastGovernor

/-- `clamp_bp`. -/
def clampBp (value : UInt64) (low high : UInt32) : UInt32 :=
  let high := if high < low then low else high
  if value < low.toUInt64 then low
  else if value > high.toUInt64 then high
  else value.toUInt32

/-- `apply_bp`. -/
def applyBp (amount : UInt64) (basisPoints : UInt32) : UInt64 :=
  saturatingMul amount basisPoints.toUInt64 / 10000

/-- `clamp_nanos`. -/
def clampNanos (value low high : Int64) : Int64 :=
  let high := if high < low then low else high
  if value < low then low else if value > high then high else value

def severityWeight : Severity → Int64
  | .none => 0
  | .advisory => 1
  | .elevated => 2
  | .severe => 3
  | .critical => 4

def describeRefusal (reason : RefusalReason) (detail : Text) : Text :=
  reason.toText ++ if detail = [] then [] else ascii ": " ++ detail

structure SynthesisRequest where
  bundle : Option EvidenceBundle := none
  policy : Option GovernorPolicy := none
  classification : Option Classification := none
  check : AuthorityCheck := {}
  intervention : InterventionId := {}
  generation : InterventionGeneration := {}
  issuedAt : Timestamp := {}
  prior : Option MitigationIntent := none
  recoveryRelaxationPermitted : Bool := false
  recoveryStepBp : BasisPoints := {}

structure SynthesisResult where
  intent : MitigationIntent := {}
  authority : AuthorityVector := {}
  notes : List Text := []

/-- A result that denies authority for a reason. -/
def SynthesisResult.refuse (intent : MitigationIntent) (authority : AuthorityVector)
    (reason : RefusalReason) (detail note : Text) : SynthesisResult :=
  { intent
    authority := { authority with
      interventionAuthorized := false, refusal := reason, refusalDetail := detail }
    notes := [note] }

namespace SynthesisRequest

/-- The authority vector every exit starts from. -/
def authority (request : SynthesisRequest) (bundle : EvidenceBundle) (policy : GovernorPolicy)
    (classification : Classification) : AuthorityVector :=
  { classes := request.check.classes
    policyEnabled := policy.enabled
    policyGenerationBound :=
      decide (bundle.policyStamp.state = .present ∨ bundle.policyStamp.state = .unknown)
    eventBound := decide (bundle.event.valid ∧ bundle.eventGeneration.valid)
    destinationBound := decide (bundle.destination.valid ∧ bundle.destinationGeneration.valid)
    windowBound := decide (bundle.window.valid ∧ bundle.windowGeneration.valid)
    epochBound := decide bundle.epoch.valid
    bootBound := decide bundle.boot.valid
    leaseBound := decide bundle.lease.valid
    provenanceBound := decide
      (bundle.provenanceStamp.state = .present ∧ bundle.provenanceStamp.provenance.valid)
    populationSaturated := classification.metrics.populationSaturated
    identityCollisionPresent := decide (classification.metrics.collidedSenders > 0)
    recoveryPolicyPresent := policy.recovery.enabled }

def issueInstant (request : SynthesisRequest) (bundle : EvidenceBundle) : Timestamp :=
  if request.issuedAt.valid then request.issuedAt else bundle.now

/-- The floor the policy declares, or else the one of the capacity evidence. -/
def protectedFloor (bundle : EvidenceBundle) (policy : GovernorPolicy) : Rate :=
  if policy.protection.protectedFloorRate.bytesPerSecond ≠ 0 then
    policy.protection.protectedFloorRate
  else bundle.capacity.protectedFloorRate

/-- The bindings of an intent. The affected queue is the most pressurized one. -/
def bindings (request : SynthesisRequest) (bundle : EvidenceBundle) (policy : GovernorPolicy)
    (classification : Classification) : MitigationIntent :=
  let queue := worstQueue bundle.queues
  { intervention := request.intervention
    generation := request.generation
    event := bundle.event
    eventGeneration := bundle.eventGeneration
    destination := bundle.destination
    destinationGeneration := bundle.destinationGeneration
    window := bundle.window
    windowGeneration := bundle.windowGeneration
    policy := policy.id
    policyGeneration := policy.generation
    epoch := bundle.epoch
    boot := bundle.boot
    worker := bundle.worker
    lease := bundle.lease
    issuedAt := request.issueInstant bundle
    queue := (queue.map fun q => q.queue).getD {}
    resource := (queue.map fun q => q.resource).getD bundle.capacity.resource
    protectedOffered := classification.metrics.protectedOffered
    protectedFloor := protectedFloor bundle policy
    resultingOffered := classification.metrics.aggregateOffered }

end SynthesisRequest

/-! ### Recovery -/

/-- The reduction one recovery step takes off: the requested step, or a quarter of
the prior reduction with the policy's minimum as floor. -/
def recoveryStep (bounds : MitigationBounds) (requested : BasisPoints) (prior : MitigationIntent) :
    UInt32 :=
  if requested.value ≠ 0 then requested.value
  else max bounds.minReductionBp (prior.reductionBp.value / 4)

/-- A step that would leave less than the minimum reduction ends the intervention. -/
def recoveryCompletes (bounds : MitigationBounds) (step : UInt32) (prior : MitigationIntent) : Prop :=
  prior.reductionBp.value ≤ step ∨ prior.reductionBp.value - step < bounds.minReductionBp

instance (bounds : MitigationBounds) (step : UInt32) (prior : MitigationIntent) :
    Decidable (recoveryCompletes bounds step prior) := by
  delta recoveryCompletes; infer_instance

/-- The intent of a completed recovery: the prior one without kind and magnitude. -/
def retiredIntent (bounds : MitigationBounds) (issued : Timestamp) (prior : MitigationIntent) :
    MitigationIntent :=
  { prior with
    kind := .none
    scope := .none
    reductionBp := BasisPoints.of 0
    admissionReductionBp := BasisPoints.of 0
    headroomBytes := ⟨0⟩
    staggerSlots := 0
    penalizedSenders := []
    affectedClasses := []
    relaxesPrior := true
    continuesPrior := false
    duration := bounds.minDuration
    issuedAt := issued
    expiresAt := ⟨issued.nanos + bounds.minDuration.nanos⟩
    insufficient := false
    escalating := false }

/-- The intent of a recovery step: the prior one with a smaller reduction. -/
def relaxedIntent (bounds : MitigationBounds) (issued : Timestamp) (step : UInt32)
    (prior : MitigationIntent) : MitigationIntent :=
  let stepped := MitigationIntent.clampToBounds { prior with
    reductionBp := BasisPoints.of (prior.reductionBp.value - step)
    relaxesPrior := true
    continuesPrior := true
    issuedAt := issued } bounds
  { stepped with expiresAt := ⟨stepped.issuedAt.nanos + stepped.duration.nanos⟩ }

def synthesizeRecovery (request : SynthesisRequest) (bundle : EvidenceBundle)
    (policy : GovernorPolicy) (intent : MitigationIntent) (authority : AuthorityVector) :
    SynthesisResult :=
  if ¬policy.recovery.enabled then
    .refuse intent authority .awaitingRecoveryPolicy
      (ascii "recovery policy is not enabled; intervention holds")
      (ascii "no relaxation: recovery policy is not enabled")
  else
    match request.prior.filter fun prior => prior.active with
    | none =>
      .refuse intent authority .noIncident (ascii "no live intervention to relax")
        (ascii "no relaxation: no live intervention")
    | some prior =>
      let bounds := policy.bounds
      let step := recoveryStep bounds request.recoveryStepBp prior
      let issued := request.issueInstant bundle
      if recoveryCompletes bounds step prior then
        { intent := retiredIntent bounds issued prior
          authority := { authority with
            interventionAuthorized := true, protectedFloorPreserved := true }
          notes := [ascii "recovery complete: intervention retired under the recovery policy"] }
      else
        let relaxed := relaxedIntent bounds issued step prior
        { intent := relaxed
          authority := { authority with
            interventionAuthorized := true, protectedFloorPreserved := true
            clamped := relaxed.clamped }
          notes := [ascii "recovery step applied: reduction relaxed under the recovery policy"] }

/-! ### Sizing an incident action -/

/-- The offer an active incast is brought down to; a risk window aims at the service rate. -/
def reductionTarget (policy : GovernorPolicy) (classification : Classification) : UInt64 :=
  let service := classification.metrics.serviceRate.bytesPerSecond
  let relaxTarget := applyBp service policy.recovery.relaxOversubscriptionBp
  if classification.kind = .activeIncast ∧ relaxTarget ≠ 0 ∧ relaxTarget < service then relaxTarget
  else service

def requiredReduction (policy : GovernorPolicy) (classification : Classification) : UInt64 :=
  let aggregate := classification.metrics.aggregateOffered.bytesPerSecond
  let target := reductionTarget policy classification
  if aggregate > target then aggregate - target else 0

def senderScopeAllowed (policy : GovernorPolicy) (classification : Classification) : Prop :=
  ¬(classification.metrics.populationSaturated ∧
    policy.protection.refuseSenderScopeWhenPopulationSaturated)

instance (policy : GovernorPolicy) (classification : Classification) :
    Decidable (senderScopeAllowed policy classification) := by
  delta senderScopeAllowed; infer_instance

/-- The contributors a sender-scoped action would penalize. -/
def selectedContributions (policy : GovernorPolicy) (classification : Classification) :
    List SenderContribution :=
  if senderScopeAllowed policy classification then
    (classification.contributions.filter fun c => c.mitigable).take
      policy.bounds.maxPenalizedSenders.toNat
  else []

def mitigableOffer (selected : List SenderContribution) : UInt64 :=
  saturatingSum (selected.map fun c => c.offeredRate.bytesPerSecond)

/-- The service classes of the selection in order of first occurrence. -/
def affectedClasses (selected : List SenderContribution) : List ServiceClass :=
  selected.foldl (fun classes c => if c.service ∈ classes then classes else classes ++ [c.service]) []

/-- The action an incident window asks for, before the policy's clamp. -/
structure SizedAction where
  kind : MitigationKind
  scope : MitigationScope
  reductionBp : UInt32 := 0
  admissionBp : UInt32 := 0
  achievable : UInt64 := 0
  headroomBytes : Bytes := {}
  staggerSlots : UInt32 := 0
  penalizedSenders : List SenderIdentity := []
  affectedClasses : List ServiceClass := []
  notes : List Text := []

/-- Headroom and staggering: the offer is within capacity, the queue is not. -/
def structuralAction (policy : GovernorPolicy) (metrics : FanInMetrics) : SizedAction :=
  let needed :=
    if metrics.queueCapacity.count > metrics.highWatermark.count then
      metrics.queueCapacity.count - metrics.highWatermark.count
    else metrics.queueCapacity.count / 4
  { kind := .temporaryHeadroomAdjustment
    scope := .queue
    headroomBytes := ⟨min needed policy.bounds.maxHeadroomBytes.count⟩
    staggerSlots := clampBp metrics.activeSenders.toUInt64 1 policy.bounds.maxStaggerSlots }

/-- The share of the selected offer, rounded up, that meets the required reduction. -/
def senderReductionBp (bounds : MitigationBounds) (required offer : UInt64) : UInt32 :=
  let scaled := saturatingMul required 10000
  clampBp (scaled / offer + if scaled % offer ≠ 0 then 1 else 0) bounds.minReductionBp
    bounds.maxReductionBp

def senderAction (policy : GovernorPolicy) (kind : IncidentKind) (metrics : FanInMetrics)
    (required : UInt64) (selected : List SenderContribution) : SizedAction :=
  let offer := mitigableOffer selected
  let reduction := senderReductionBp policy.bounds required offer
  let mitigation : MitigationKind :=
    if kind = .activeIncast then .priorityAwareRateReduction else .senderStaggering
  { kind := mitigation
    scope := .senderSet
    reductionBp := reduction
    achievable := applyBp offer reduction
    staggerSlots :=
      if mitigation = .senderStaggering then
        clampBp metrics.activeSenders.toUInt64 1 policy.bounds.maxStaggerSlots
      else 0
    penalizedSenders := selected.map fun c => c.identity
    affectedClasses := affectedClasses selected }

/-- The share of the whole offer, rounded down, that meets the required reduction. -/
def admissionReductionBp (bounds : MitigationBounds) (required aggregate : UInt64) : UInt32 :=
  clampBp (saturatingMul required 10000 / if aggregate = 0 then 1 else aggregate)
    (min bounds.minReductionBp bounds.maxAdmissionReductionBp) bounds.maxAdmissionReductionBp

/-- A bounded admission reduction of the destination: it needs no identity, and it
takes its share of the protected offer as well. -/
def admissionAction (policy : GovernorPolicy) (metrics : FanInMetrics) (required : UInt64)
    (scopeAllowed : Bool) : SizedAction :=
  let aggregate := metrics.aggregateOffered.bytesPerSecond
  let admission := admissionReductionBp policy.bounds required aggregate
  { kind := .temporaryAdmissionReduction
    scope := .destination
    admissionBp := admission
    achievable := applyBp aggregate admission
    notes := [if scopeAllowed then ascii "no mitigable per-sender population: destination-scoped action"
      else ascii "population saturated: sender-scoped penalization is not authorized"] }

/-- The action of an incident window; none when the offer is already within the
service rate and the queue is not collapsing. -/
def sizeAction (policy : GovernorPolicy) (classification : Classification) : Option SizedAction :=
  let metrics := classification.metrics
  let required := requiredReduction policy classification
  let selected := selectedContributions policy classification
  if required = 0 then
    if classification.kind = .activeIncast then some (structuralAction policy metrics) else none
  else if senderScopeAllowed policy classification ∧ mitigableOffer selected > 0 then
    some (senderAction policy classification.kind metrics required selected)
  else
    some (admissionAction policy metrics required (decide (senderScopeAllowed policy classification)))

/-- Buffer headroom relief accompanies an active incast, with its note. -/
def headroomRelief (bundle : EvidenceBundle) (policy : GovernorPolicy)
    (classification : Classification) (action : SizedAction) : Option Bytes :=
  let buffer := bundle.capacity.bufferCapacity.count
  let ratio := (ratioBp classification.metrics.bufferHeadroom.count buffer).value
  if classification.kind = .activeIncast ∧ action.kind ≠ .temporaryHeadroomAdjustment ∧ buffer ≠ 0 ∧
      ratio < policy.pressure.headroomWarningBp then
    some ⟨min (buffer / 4) policy.bounds.maxHeadroomBytes.count⟩
  else none

/-- The duration between the policy's bounds by quarters of the severity. -/
def actionDuration (bounds : MitigationBounds) (severity : Severity) : Duration :=
  let span := bounds.maxDuration.nanos - bounds.minDuration.nanos
  let derived := bounds.minDuration.nanos + span * severityWeight severity / 4
  ⟨clampNanos derived bounds.minDuration.nanos bounds.maxDuration.nanos⟩

/-- Demand the action leaves above the target. -/
def residualDemand (required achievable : UInt64) : UInt64 :=
  if required > achievable then required - achievable else 0

/-- The intent of a sized action before escalation and clamp. -/
def sizedIntent (request : SynthesisRequest) (bundle : EvidenceBundle) (policy : GovernorPolicy)
    (classification : Classification) (action : SizedAction) : MitigationIntent :=
  let aggregate := classification.metrics.aggregateOffered.bytesPerSecond
  let prior := request.prior.filter fun prior => prior.active
  { request.bindings bundle policy classification with
    kind := action.kind
    scope := action.scope
    requiredReduction := ⟨requiredReduction policy classification⟩
    reductionBp := BasisPoints.of action.reductionBp
    admissionReductionBp := BasisPoints.of action.admissionBp
    achievableReduction := ⟨action.achievable⟩
    headroomBytes :=
      (headroomRelief bundle policy classification action).getD action.headroomBytes
    staggerSlots := action.staggerSlots
    penalizedSenders := action.penalizedSenders
    affectedClasses := action.affectedClasses
    duration := actionDuration policy.bounds classification.severity
    resultingOffered := ⟨if aggregate ≥ action.achievable then aggregate - action.achievable else 0⟩
    continuesPrior := prior.isSome
    relaxesPrior := false }

/-- Residual demand marks the intent; an action that removes nothing is an escalation. -/
def escalate (intent : MitigationIntent) (action : SizedAction) : MitigationIntent :=
  { intent with
    insufficient := true
    escalating := true
    kind := if action.achievable = 0 then .congestionEscalation else intent.kind
    scope := if action.achievable = 0 then .destination else intent.scope }

/-- The last step of an incident synthesis: the clamp and the expiry. -/
def finishIntent (bounds : MitigationBounds) (intent : MitigationIntent) : MitigationIntent :=
  let clamped := intent.clampToBounds bounds
  { clamped with expiresAt := ⟨clamped.issuedAt.nanos + clamped.duration.nanos⟩ }

/-- Residual demand cannot be met without touching protected demand. -/
def floorConflict (metrics : FanInMetrics) (intent : MitigationIntent) : Prop :=
  metrics.protectedOffered.positive ∨ intent.protectedFloor.bytesPerSecond ≠ 0

instance (metrics : FanInMetrics) (intent : MitigationIntent) :
    Decidable (floorConflict metrics intent) := by
  delta floorConflict; infer_instance

def synthesizeIncident (request : SynthesisRequest) (bundle : EvidenceBundle)
    (policy : GovernorPolicy) (classification : Classification) (intent : MitigationIntent)
    (authority : AuthorityVector) : SynthesisResult :=
  match sizeAction policy classification with
  | none =>
    .refuse { intent with requiredReduction := ⟨requiredReduction policy classification⟩ } authority
      .noIncident (ascii "offered rate is already within the destination service rate")
      (ascii "no intervention: no reduction is required")
  | some action =>
    let metrics := classification.metrics
    let sized := sizedIntent request bundle policy classification action
    let residual := residualDemand (requiredReduction policy classification) action.achievable
    let notes := action.notes ++
      if (headroomRelief bundle policy classification action).isSome then
        [ascii "buffer headroom relief included (bounded)"] else []
    if residual > 0 ∧ floorConflict metrics sized ∧
        ¬policy.protection.escalateInsteadOfViolatingFloor then
      { intent := {}
        authority := { authority with
          interventionAuthorized := false
          refusal := .protectedFloorConflict
          refusalDetail := ascii
            "required reduction cannot be achieved without penalizing protected obligations" }
        notes := notes ++ [ascii "refused: protected floor conflict and escalation is disabled"] }
    else
      let raised := if residual > 0 then escalate sized action else sized
      let finished := finishIntent policy.bounds raised
      { intent := finished
        authority := { authority with
          interventionAuthorized := true
          protectedFloorPreserved := true
          clamped := finished.clamped
          boundsRespected := true
          refusal := .none
          refusalDetail := [] }
        notes := notes ++
          (if residual > 0 then
            [ascii "residual demand escalated: protected obligations are preserved"] else []) ++
          if sized.protectedFloor.bytesPerSecond ≠ 0 ∧
              sized.protectedOffered.bytesPerSecond < sized.protectedFloor.bytesPerSecond then
            [ascii "protected demand is already below its declared floor"] else [] }

/-! ### Synthesis -/

/-- `synthesize` of a complete request. -/
def synthesizeWindow (request : SynthesisRequest) (bundle : EvidenceBundle) (policy : GovernorPolicy)
    (classification : Classification) : SynthesisResult :=
  let authority := request.authority bundle policy classification
  let intent := request.bindings bundle policy classification
  if request.check.reason ≠ .none then
    .refuse intent authority request.check.reason request.check.detail
      (describeRefusal request.check.reason request.check.detail)
  else if ¬policy.enabled then
    .refuse intent authority .policyDisabled (ascii "policy document is disabled")
      (ascii "no intervention: policy disabled")
  else
    match classification.kind with
    | .unknown =>
      .refuse intent authority
        (if classification.refusal = .none then .missingEvidence else classification.refusal)
        classification.refusalDetail
        (ascii "no intervention: incident classification is UNKNOWN")
    | .noFanIn =>
      .refuse intent authority .noIncident (ascii "observed demand is not many-to-one")
        (ascii "no intervention: synchronization not demonstrated")
    | .ordinaryManyToOne =>
      .refuse intent authority .noIncident
        (ascii "many-to-one demand is not synchronized: incast mitigation is not authorized")
        (ascii "no intervention: synchronization not demonstrated")
    | .recovery => synthesizeRecovery request bundle policy intent authority
    | .synchronizedIncastRisk | .activeIncast =>
      synthesizeIncident request bundle policy classification intent authority

def synthesize (request : SynthesisRequest) : SynthesisResult :=
  match request.bundle, request.policy, request.classification with
  | some bundle, some policy, some classification =>
    synthesizeWindow request bundle policy classification
  | _, _, _ =>
    { authority :=
        { refusal := .malformedBundle, refusalDetail := ascii "synthesis request is incomplete" }
      notes := [ascii "synthesis refused: incomplete request"] }

/-! ### What each exit returns -/

section Exits

variable {request : SynthesisRequest} {bundle : EvidenceBundle} {policy : GovernorPolicy}
  {classification : Classification} {intent : MitigationIntent} {authority : AuthorityVector}

@[simp] theorem refuse_intent (reason : RefusalReason) (detail note : Text) :
    (SynthesisResult.refuse intent authority reason detail note).intent = intent := rfl

@[simp] theorem refuse_authorized (reason : RefusalReason) (detail note : Text) :
    (SynthesisResult.refuse intent authority reason detail note).authority.interventionAuthorized =
      false := rfl

@[simp] theorem refuse_refusal (reason : RefusalReason) (detail note : Text) :
    (SynthesisResult.refuse intent authority reason detail note).authority.refusal = reason := rfl

theorem synthesize_complete (hb : request.bundle = some bundle) (hp : request.policy = some policy)
    (hc : request.classification = some classification) :
    synthesize request = synthesizeWindow request bundle policy classification := by
  simp [synthesize, hb, hp, hc]

/-- Outside the incident kinds and the recovery kind nothing is authorized and nobody
is penalized; neither is a window whose check denies authority. -/
theorem synthesizeWindow_unauthorized
    (h : request.check.reason ≠ .none ∨ policy.enabled = false ∨
      (¬classification.kind.incident ∧ classification.kind ≠ .recovery)) :
    (synthesizeWindow request bundle policy classification).authority.interventionAuthorized =
        false ∧
      (synthesizeWindow request bundle policy classification).intent =
        request.bindings bundle policy classification := by
  unfold synthesizeWindow
  by_cases hr : request.check.reason = .none
  · by_cases he : policy.enabled
    · rcases h with h | h | ⟨hi, hk⟩
      · contradiction
      · simp [he] at h
      · cases hkind : classification.kind <;>
          simp [hr, he, hkind, IncidentKind.incident] at hi hk ⊢
    · simp [hr, he]
  · simp [hr]

theorem synthesizeWindow_recovery (hr : request.check.reason = .none) (he : policy.enabled = true)
    (hk : classification.kind = .recovery) :
    synthesizeWindow request bundle policy classification =
      synthesizeRecovery request bundle policy (request.bindings bundle policy classification)
        (request.authority bundle policy classification) := by
  simp [synthesizeWindow, hr, he, hk]

theorem synthesizeWindow_incident (hr : request.check.reason = .none) (he : policy.enabled = true)
    (hk : classification.kind.incident) :
    synthesizeWindow request bundle policy classification =
      synthesizeIncident request bundle policy classification
        (request.bindings bundle policy classification)
        (request.authority bundle policy classification) := by
  rcases hk with hk | hk <;> simp [synthesizeWindow, hr, he, hk]

/-- A recovery synthesis authorizes exactly when recovery is enabled and the prior
intent is active. -/
theorem synthesizeRecovery_authorized_iff :
    (synthesizeRecovery request bundle policy intent authority).authority.interventionAuthorized =
        true ↔
      policy.recovery.enabled = true ∧ ∃ prior, request.prior = some prior ∧ prior.active := by
  unfold synthesizeRecovery
  by_cases he : policy.recovery.enabled
  · rw [if_neg (not_not.mpr he)]
    cases hp : request.prior with
    | none => simp
    | some prior =>
      by_cases ha : prior.active
      · simp only [Option.filter, ha, decide_true, if_true]
        split_ifs <;> simp [he, ha]
      · simp [Option.filter, ha]
  · rw [if_pos he]
    simp [he]

/-- The intent of an authorized recovery synthesis. -/
theorem synthesizeRecovery_intent {prior : MitigationIntent} (he : policy.recovery.enabled = true)
    (hp : request.prior = some prior) (ha : prior.active) :
    (synthesizeRecovery request bundle policy intent authority).intent =
      let step := recoveryStep policy.bounds request.recoveryStepBp prior
      if recoveryCompletes policy.bounds step prior then
        retiredIntent policy.bounds (request.issueInstant bundle) prior
      else relaxedIntent policy.bounds (request.issueInstant bundle) step prior := by
  unfold synthesizeRecovery
  rw [if_neg (not_not.mpr he), hp]
  simp only [Option.filter, ha, decide_true, if_true]
  split_ifs <;> rfl

@[simp] theorem relaxedIntent_penalizedSenders (bounds : MitigationBounds) (issued : Timestamp)
    (step : UInt32) (prior : MitigationIntent) :
    (relaxedIntent bounds issued step prior).penalizedSenders =
      prior.penalizedSenders.take bounds.maxPenalizedSenders.toNat := rfl

/-- A sized action is refused when it leaves residual demand, protected demand or a
floor exists, and escalation is disabled. -/
def actionRefused (bundle : EvidenceBundle) (policy : GovernorPolicy)
    (classification : Classification) (action : SizedAction) : Prop :=
  residualDemand (requiredReduction policy classification) action.achievable > 0 ∧
    (classification.metrics.protectedOffered.positive ∨
      (SynthesisRequest.protectedFloor bundle policy).bytesPerSecond ≠ 0) ∧
    ¬policy.protection.escalateInsteadOfViolatingFloor

instance (action : SizedAction) :
    Decidable (actionRefused bundle policy classification action) := by
  delta actionRefused; infer_instance

/-- The intent of an authorized incident synthesis. -/
def actionIntent (request : SynthesisRequest) (bundle : EvidenceBundle) (policy : GovernorPolicy)
    (classification : Classification) (action : SizedAction) : MitigationIntent :=
  let sized := sizedIntent request bundle policy classification action
  finishIntent policy.bounds
    (if residualDemand (requiredReduction policy classification) action.achievable > 0 then
      escalate sized action
    else sized)

theorem synthesizeIncident_none (h : sizeAction policy classification = none) :
    (synthesizeIncident request bundle policy classification intent
        authority).authority.interventionAuthorized = false ∧
      (synthesizeIncident request bundle policy classification intent authority).authority.refusal =
        .noIncident ∧
      (synthesizeIncident request bundle policy classification intent
        authority).intent.penalizedSenders = intent.penalizedSenders := by
  simp [synthesizeIncident, h]

theorem synthesizeIncident_refused {action : SizedAction}
    (h : sizeAction policy classification = some action)
    (hr : actionRefused bundle policy classification action) :
    (synthesizeIncident request bundle policy classification intent
        authority).authority.interventionAuthorized = false ∧
      (synthesizeIncident request bundle policy classification intent authority).intent = {} := by
  have hc : residualDemand (requiredReduction policy classification) action.achievable > 0 ∧
      floorConflict classification.metrics (sizedIntent request bundle policy classification action) ∧
      ¬policy.protection.escalateInsteadOfViolatingFloor := hr
  simp only [synthesizeIncident, h]
  rw [if_pos hc]
  exact ⟨rfl, rfl⟩

theorem synthesizeIncident_authorized {action : SizedAction}
    (h : sizeAction policy classification = some action)
    (hr : ¬actionRefused bundle policy classification action) :
    (synthesizeIncident request bundle policy classification intent
        authority).authority.interventionAuthorized = true ∧
      (synthesizeIncident request bundle policy classification intent authority).authority.refusal =
        .none ∧
      (synthesizeIncident request bundle policy classification intent authority).intent =
        actionIntent request bundle policy classification action := by
  have hc : ¬(residualDemand (requiredReduction policy classification) action.achievable > 0 ∧
      floorConflict classification.metrics (sizedIntent request bundle policy classification action) ∧
      ¬policy.protection.escalateInsteadOfViolatingFloor) := hr
  simp only [synthesizeIncident, h]
  rw [if_neg hc]
  exact ⟨rfl, rfl, rfl⟩

/-- An incident window has an action that is not refused. -/
def actionAvailable (bundle : EvidenceBundle) (policy : GovernorPolicy)
    (classification : Classification) : Prop :=
  ∃ action, sizeAction policy classification = some action ∧
    ¬actionRefused bundle policy classification action

theorem synthesizeIncident_authorized_iff :
    (synthesizeIncident request bundle policy classification intent
        authority).authority.interventionAuthorized = true ↔
      actionAvailable bundle policy classification := by
  constructor
  · intro ha
    cases hs : sizeAction policy classification with
    | none =>
      rw [(synthesizeIncident_none hs).1] at ha
      contradiction
    | some action =>
      refine ⟨action, hs, fun hr => ?_⟩
      rw [(synthesizeIncident_refused hs hr).1] at ha
      contradiction
  · rintro ⟨action, hs, hr⟩
    exact (synthesizeIncident_authorized hs hr).1

theorem sizeAction_kind {action : SizedAction} (h : sizeAction policy classification = some action) :
    action.kind ≠ .none := by
  unfold sizeAction at h
  simp only at h
  split_ifs at h
  · rw [← Option.some.inj h]
    simp [structuralAction]
  · rw [← Option.some.inj h]
    simp only [senderAction]
    split_ifs <;> simp
  · rw [← Option.some.inj h]
    simp [admissionAction]

/-- An authorized action is active. -/
theorem actionIntent_active {action : SizedAction}
    (h : sizeAction policy classification = some action) :
    (actionIntent request bundle policy classification action).active := by
  have hk := sizeAction_kind h
  simp only [MitigationIntent.active, actionIntent, finishIntent, MitigationIntent.clampToBounds_kind]
  split_ifs
  · simp only [escalate]
    split_ifs
    · simp
    · exact hk
  · exact hk

theorem mem_selectedContributions {c : SenderContribution}
    (h : c ∈ selectedContributions policy classification) :
    c ∈ classification.contributions ∧ c.mitigable = true ∧
      senderScopeAllowed policy classification := by
  unfold selectedContributions at h
  split_ifs at h with hs
  · have hm := List.mem_filter.mp (List.mem_of_mem_take h)
    exact ⟨hm.1, hm.2, hs⟩
  · simp at h

theorem selectedContributions_length (policy : GovernorPolicy) (classification : Classification) :
    (selectedContributions policy classification).length ≤
      policy.bounds.maxPenalizedSenders.toNat := by
  unfold selectedContributions
  split_ifs
  · simp only [List.length_take]
    omega
  · simp

/-- Only a sender-scoped action penalizes, and it penalizes the whole selection. -/
theorem sizeAction_penalizedSenders {action : SizedAction}
    (h : sizeAction policy classification = some action) :
    action.penalizedSenders =
      if requiredReduction policy classification ≠ 0 ∧
          mitigableOffer (selectedContributions policy classification) > 0 then
        (selectedContributions policy classification).map fun c => c.identity
      else [] := by
  unfold sizeAction at h
  simp only at h
  split_ifs at h with hreq hk hs
  · rw [← Option.some.inj h, if_neg (by simp [hreq])]
    rfl
  · rw [← Option.some.inj h, if_pos ⟨hreq, hs.2⟩]
    rfl
  · rw [← Option.some.inj h]
    by_cases ha : senderScopeAllowed policy classification
    · rw [if_neg fun hc => hs ⟨ha, hc.2⟩]
      rfl
    · simp [selectedContributions, ha, admissionAction]

/-- The published list of an authorized incident synthesis. -/
theorem actionIntent_penalizedSenders {action : SizedAction}
    (h : sizeAction policy classification = some action) :
    (actionIntent request bundle policy classification action).penalizedSenders =
      action.penalizedSenders := by
  have hlen : action.penalizedSenders.length ≤ policy.bounds.maxPenalizedSenders.toNat := by
    rw [sizeAction_penalizedSenders h]
    split_ifs
    · rw [List.length_map]
      exact selectedContributions_length policy classification
    · simp
  simp only [actionIntent, finishIntent, MitigationIntent.clampToBounds_penalizedSenders]
  split_ifs <;> exact List.take_of_length_le hlen

end Exits

end IncastGovernor
