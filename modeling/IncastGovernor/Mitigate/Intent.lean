import IncastGovernor.Detect.Classify

/-! The mitigation intent and the authority vector of a decision, and the clamp of an
intent into the policy's bounds. An intent is a bounded request; the enforcement
plane outside may execute or ignore it. -/

namespace IncastGovernor

inductive MitigationKind where
  | none | pacingHint | senderStaggering | temporaryAdmissionReduction
  | priorityAwareRateReduction | temporaryHeadroomAdjustment | congestionEscalation
  deriving DecidableEq

def MitigationKind.toText : MitigationKind → Text
  | .none => ascii "None"
  | .pacingHint => ascii "PacingHint"
  | .senderStaggering => ascii "SenderStaggering"
  | .temporaryAdmissionReduction => ascii "TemporaryAdmissionReduction"
  | .priorityAwareRateReduction => ascii "PriorityAwareRateReduction"
  | .temporaryHeadroomAdjustment => ascii "TemporaryHeadroomAdjustment"
  | .congestionEscalation => ascii "CongestionEscalation"

inductive MitigationScope where
  | none | destination | queue | senderSet | resource
  deriving DecidableEq

/-- The justification of a decision: the state of every evidence class and every
binding that was checked. -/
structure AuthorityVector where
  classes : PerClass EvidenceState := PerClass.ofFn fun _ => .unknown
  interventionAuthorized : Bool := false
  refusal : RefusalReason := .missingEvidence
  refusalDetail : Text := []
  policyEnabled : Bool := false
  policyGenerationBound : Bool := false
  eventBound : Bool := false
  destinationBound : Bool := false
  windowBound : Bool := false
  epochBound : Bool := false
  bootBound : Bool := false
  leaseBound : Bool := false
  provenanceBound : Bool := false
  populationSaturated : Bool := false
  identityCollisionPresent : Bool := false
  protectedFloorPreserved : Bool := true
  recoveryPolicyPresent : Bool := false
  boundsRespected : Bool := true
  clamped : Bool := false

structure MitigationIntent where
  kind : MitigationKind := .none
  scope : MitigationScope := .none
  intervention : InterventionId := {}
  generation : InterventionGeneration := {}
  event : EventId := {}
  eventGeneration : EventGeneration := {}
  destination : DestinationId := {}
  destinationGeneration : DestinationGeneration := {}
  window : WindowId := {}
  windowGeneration : WindowGeneration := {}
  policy : PolicyId := {}
  policyGeneration : PolicyGeneration := {}
  epoch : EpochId := {}
  boot : BootIncarnation := {}
  worker : WorkerId := {}
  lease : LeaseId := {}
  issuedAt : Timestamp := {}
  expiresAt : Timestamp := {}
  duration : Duration := {}
  reductionBp : BasisPoints := {}
  admissionReductionBp : BasisPoints := {}
  aggregateReductionBp : BasisPoints := {}
  headroomBytes : Bytes := {}
  staggerSlots : UInt32 := 0
  penalizedSenders : List SenderIdentity := []
  affectedClasses : List ServiceClass := []
  queue : QueueId := {}
  resource : ResourceId := {}
  protectedOffered : Rate := {}
  protectedFloor : Rate := {}
  resultingOffered : Rate := {}
  requiredReduction : Rate := {}
  achievableReduction : Rate := {}
  bounded : Bool := true
  clamped : Bool := false
  insufficient : Bool := false
  escalating : Bool := false
  relaxesPrior : Bool := false
  continuesPrior : Bool := false
  deriving DecidableEq

namespace MitigationIntent

def active (intent : MitigationIntent) : Prop := intent.kind ≠ .none

instance (intent : MitigationIntent) : Decidable intent.active :=
  inferInstanceAs (Decidable (intent.kind ≠ .none))

/-- The bounds an intent exceeds. -/
def exceedsBounds (intent : MitigationIntent) (bounds : MitigationBounds) : Prop :=
  intent.reductionBp.value > bounds.maxReductionBp ∨
    intent.admissionReductionBp.value > bounds.maxAdmissionReductionBp ∨
    intent.headroomBytes.count > bounds.maxHeadroomBytes.count ∨
    intent.staggerSlots > bounds.maxStaggerSlots ∨
    intent.penalizedSenders.length > bounds.maxPenalizedSenders.toNat ∨
    intent.duration < bounds.minDuration ∨
    (if intent.duration < bounds.minDuration then bounds.minDuration else intent.duration) >
      bounds.maxDuration

instance (intent : MitigationIntent) (bounds : MitigationBounds) :
    Decidable (intent.exceedsBounds bounds) := by
  delta exceedsBounds; infer_instance

/-- `clamp_to_bounds`: every magnitude is cut to its bound, and the intent says
whether any was. -/
def clampToBounds (intent : MitigationIntent) (bounds : MitigationBounds) : MitigationIntent :=
  let raised := if intent.duration < bounds.minDuration then bounds.minDuration else intent.duration
  { intent with
    reductionBp :=
      if intent.reductionBp.value > bounds.maxReductionBp then BasisPoints.of bounds.maxReductionBp
      else intent.reductionBp
    admissionReductionBp :=
      if intent.admissionReductionBp.value > bounds.maxAdmissionReductionBp then
        BasisPoints.of bounds.maxAdmissionReductionBp
      else intent.admissionReductionBp
    headroomBytes :=
      if intent.headroomBytes.count > bounds.maxHeadroomBytes.count then bounds.maxHeadroomBytes
      else intent.headroomBytes
    staggerSlots :=
      if intent.staggerSlots > bounds.maxStaggerSlots then bounds.maxStaggerSlots
      else intent.staggerSlots
    penalizedSenders := intent.penalizedSenders.take bounds.maxPenalizedSenders.toNat
    duration := if raised > bounds.maxDuration then bounds.maxDuration else raised
    clamped := intent.clamped || decide (intent.exceedsBounds bounds)
    bounded := true }

section Clamp

variable (intent : MitigationIntent) (bounds : MitigationBounds)

@[simp] theorem clampToBounds_kind : (intent.clampToBounds bounds).kind = intent.kind := rfl

@[simp] theorem clampToBounds_scope : (intent.clampToBounds bounds).scope = intent.scope := rfl

@[simp] theorem clampToBounds_penalizedSenders :
    (intent.clampToBounds bounds).penalizedSenders =
      intent.penalizedSenders.take bounds.maxPenalizedSenders.toNat := rfl

@[simp] theorem clampToBounds_protectedOffered :
    (intent.clampToBounds bounds).protectedOffered = intent.protectedOffered := rfl

@[simp] theorem clampToBounds_protectedFloor :
    (intent.clampToBounds bounds).protectedFloor = intent.protectedFloor := rfl

@[simp] theorem clampToBounds_resultingOffered :
    (intent.clampToBounds bounds).resultingOffered = intent.resultingOffered := rfl

@[simp] theorem clampToBounds_requiredReduction :
    (intent.clampToBounds bounds).requiredReduction = intent.requiredReduction := rfl

@[simp] theorem clampToBounds_achievableReduction :
    (intent.clampToBounds bounds).achievableReduction = intent.achievableReduction := rfl

@[simp] theorem clampToBounds_escalating :
    (intent.clampToBounds bounds).escalating = intent.escalating := rfl

theorem clampToBounds_reductionBp :
    (intent.clampToBounds bounds).reductionBp.value.toNat =
      min intent.reductionBp.value.toNat bounds.maxReductionBp.toNat :=
  BasisPoints.cut_toNat _ _

theorem clampToBounds_admissionReductionBp :
    (intent.clampToBounds bounds).admissionReductionBp.value.toNat =
      min intent.admissionReductionBp.value.toNat bounds.maxAdmissionReductionBp.toNat :=
  BasisPoints.cut_toNat _ _

end Clamp

end MitigationIntent

end IncastGovernor
