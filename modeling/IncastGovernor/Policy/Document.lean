import IncastGovernor.Evidence.Bundle

/-! The policy document: thresholds, hysteresis, protection, mitigation bounds and
authority rules, with the validation that refuses a contradictory document. -/

namespace IncastGovernor

structure SynchronizationPolicy where
  manyToOneMinSenders : UInt32 := 4
  minSynchronizedSenders : UInt32 := 8
  syncWindowBound : Duration := ⟨50000⟩
  syncIndexThresholdBp : UInt32 := 7000
  minAggregateShareBp : UInt32 := 6000

structure PressurePolicy where
  riskOversubscriptionBp : UInt32 := 12500
  collapseOversubscriptionBp : UInt32 := 20000
  activeQueuePressureBp : UInt32 := 8000
  congestionQueuePressureBp : UInt32 := 6000
  dropEventsForActive : UInt64 := 1
  headroomWarningBp : UInt32 := 2500

structure RecoveryPolicy where
  enabled : Bool := false
  requiredCleanWindows : UInt32 := 3
  dwell : Duration := ⟨0⟩
  relaxOversubscriptionBp : UInt32 := 9000
  relaxQueuePressureBp : UInt32 := 5000
  maxDropsDuringRecovery : UInt64 := 0
  requireCapacityRevalidation : Bool := true

structure HysteresisPolicy where
  enterMarginBp : UInt32 := 500
  exitMarginBp : UInt32 := 1500
  minDwellWindows : UInt32 := 2
  maxIncidentWindows : UInt32 := 4096
  maxCleanWindows : UInt32 := 4096

structure ProtectionPolicy where
  protectedFloorRate : Rate := {}
  strongestMitigableClass : ServiceClass := .bulk
  neverPenalizeExplicitlyProtected : Bool := true
  refuseSenderScopeWhenPopulationSaturated : Bool := true
  escalateInsteadOfViolatingFloor : Bool := true

structure MitigationBounds where
  minReductionBp : UInt32 := 100
  maxReductionBp : UInt32 := 5000
  maxAdmissionReductionBp : UInt32 := 5000
  maxHeadroomBytes : Bytes := ⟨1048576⟩
  minDuration : Duration := ⟨100000000⟩
  maxDuration : Duration := ⟨5000000000⟩
  maxPenalizedSenders : UInt64 := 1024
  maxStaggerSlots : UInt32 := 64

structure AuthorityPolicy where
  requiredClasses : PerClass Bool := ⟨true, true, true, true, true, true, false, true⟩
  requireProvenance : Bool := true
  requireValidLease : Bool := true
  requireMatchingEpoch : Bool := true
  requireMatchingBoot : Bool := true
  refuseOnIdentityCollision : Bool := true
  refuseOnEventMismatch : Bool := true
  maxFreshnessHorizonNanos : UInt64 := 2000000000

structure GovernorPolicy where
  id : PolicyId := {}
  generation : PolicyGeneration := {}
  name : Text := ascii "default"
  enabled : Bool := true
  synchronization : SynchronizationPolicy := {}
  pressure : PressurePolicy := {}
  recovery : RecoveryPolicy := {}
  hysteresis : HysteresisPolicy := {}
  protection : ProtectionPolicy := {}
  bounds : MitigationBounds := {}
  authority : AuthorityPolicy := {}

namespace GovernorPolicy

def validate (policy : GovernorPolicy) : Status := do
  if ¬policy.id.valid then fail .invalidArgument "policy id is absent"
  if ¬policy.generation.valid then fail .invalidArgument "policy generation is absent"
  if policy.name = [] ∨ policy.name.length > kMaxIdentifierChars then
    fail .invalidArgument "policy name is empty or too long"
  let sync := policy.synchronization
  if sync.manyToOneMinSenders < 2 then
    fail .outOfRange "many_to_one_min_senders must be at least 2"
  if sync.minSynchronizedSenders < sync.manyToOneMinSenders then
    fail .outOfRange "min_synchronized_senders must be at least many_to_one_min_senders"
  if ¬sync.syncWindowBound.positive then
    fail .outOfRange "sync_window_bound must be positive"
  if sync.syncIndexThresholdBp > BasisPoints.kMax ∨ sync.minAggregateShareBp > BasisPoints.kMax then
    fail .outOfRange "synchronization thresholds exceed the ratio domain"
  let pressure := policy.pressure
  if pressure.riskOversubscriptionBp > pressure.collapseOversubscriptionBp then
    fail .outOfRange "risk_oversubscription_bp must not exceed collapse_oversubscription_bp"
  if pressure.congestionQueuePressureBp > pressure.activeQueuePressureBp then
    fail .outOfRange "congestion_queue_pressure_bp must not exceed active_queue_pressure_bp"
  if pressure.riskOversubscriptionBp = 0 then
    fail .outOfRange "risk_oversubscription_bp must be positive"
  let recovery := policy.recovery
  if recovery.relaxOversubscriptionBp ≥ pressure.riskOversubscriptionBp then
    fail .outOfRange "recovery relax_oversubscription_bp must be below the risk entry threshold"
  if recovery.relaxQueuePressureBp ≥ pressure.activeQueuePressureBp then
    fail .outOfRange "recovery relax_queue_pressure_bp must be below the active entry threshold"
  if recovery.enabled then
    if recovery.requiredCleanWindows = 0 then
      fail .outOfRange "an enabled recovery policy requires at least one clean window"
    if recovery.dwell.nanos < 0 then
      fail .outOfRange "recovery dwell must not be negative"
  if policy.hysteresis.minDwellWindows = 0 then
    fail .outOfRange "min_dwell_windows must be positive"
  if policy.hysteresis.maxIncidentWindows = 0 ∨ policy.hysteresis.maxCleanWindows = 0 then
    fail .outOfRange "hysteresis window bounds must be positive"
  let bounds := policy.bounds
  if bounds.minReductionBp = 0 ∨ bounds.maxReductionBp = 0 then
    fail .outOfRange "reduction bounds must be positive"
  if bounds.minReductionBp > bounds.maxReductionBp then
    fail .outOfRange "min_reduction_bp must not exceed max_reduction_bp"
  if bounds.maxReductionBp > 10000 then
    fail .outOfRange "max_reduction_bp may not exceed 10000 (100%)"
  if bounds.maxAdmissionReductionBp > 10000 then
    fail .outOfRange "max_admission_reduction_bp may not exceed 10000 (100%)"
  if bounds.minDuration.nanos ≤ 0 ∨ bounds.maxDuration.nanos ≤ 0 then
    fail .outOfRange "duration bounds must be positive"
  if bounds.minDuration > bounds.maxDuration then
    fail .outOfRange "min_duration must not exceed max_duration"
  if bounds.maxPenalizedSenders = 0 ∨ bounds.maxPenalizedSenders.toNat > kMaxPenalizedSenders then
    fail .outOfRange "max_penalized_senders outside the supported bound"
  if bounds.maxStaggerSlots = 0 ∨ bounds.maxStaggerSlots > 4096 then
    fail .outOfRange "max_stagger_slots outside the supported bound"
  if policy.authority.maxFreshnessHorizonNanos = 0 then
    fail .outOfRange "max_freshness_horizon_nanos must be positive"
  if policy.authority.requireProvenance ≠ policy.authority.requiredClasses.provenance then
    fail .invalidArgument "authority.require_provenance contradicts required_classes[Provenance]"

/-- What a validated document says of its mitigation bounds. -/
structure BoundsValid (bounds : MitigationBounds) : Prop where
  reduction_pos : ¬(bounds.minReductionBp = 0 ∨ bounds.maxReductionBp = 0)
  reduction_le : bounds.minReductionBp ≤ bounds.maxReductionBp
  reduction_whole : bounds.maxReductionBp ≤ 10000
  admission_whole : bounds.maxAdmissionReductionBp ≤ 10000
  duration_pos : ¬(bounds.minDuration.nanos ≤ 0 ∨ bounds.maxDuration.nanos ≤ 0)
  duration_le : ¬bounds.minDuration > bounds.maxDuration

theorem bounds_and_senders_of_validate {policy : GovernorPolicy} (h : policy.validate = .ok ()) :
    BoundsValid policy.bounds ∧
      policy.bounds.maxPenalizedSenders.toNat ≤ kMaxPenalizedSenders := by
  unfold validate at h
  -- the identity, synchronization, pressure and recovery threshold checks
  iterate 12 obtain ⟨-, h⟩ := of_check_ok h
  have h := of_checks_ok h fun h => (of_check_ok (of_check_ok h).2).2
  -- the hysteresis checks
  iterate 2 obtain ⟨-, h⟩ := of_check_ok h
  obtain ⟨hpos, h⟩ := of_check_ok h
  obtain ⟨hle, h⟩ := of_check_ok h
  obtain ⟨hwhole, h⟩ := of_check_ok h
  obtain ⟨hadmission, h⟩ := of_check_ok h
  obtain ⟨hduration, h⟩ := of_check_ok h
  obtain ⟨hspan, h⟩ := of_check_ok h
  obtain ⟨hsenders, -⟩ := of_check_ok h
  exact ⟨⟨hpos, UInt32.not_lt.mp hle, UInt32.not_lt.mp hwhole, UInt32.not_lt.mp hadmission,
    hduration, hspan⟩, Nat.not_lt.mp fun hlt => hsenders (Or.inr hlt)⟩

theorem syncWindowBound_of_validate {policy : GovernorPolicy} (h : policy.validate = .ok ()) :
    policy.synchronization.syncWindowBound.positive := by
  unfold validate at h
  -- the identity and population checks
  iterate 5 obtain ⟨-, h⟩ := of_check_ok h
  exact not_not.mp (of_check_ok h).1

theorem bounds_of_validate {policy : GovernorPolicy} (h : policy.validate = .ok ()) :
    BoundsValid policy.bounds := (bounds_and_senders_of_validate h).1

end GovernorPolicy

def makeDefaultPolicy : GovernorPolicy :=
  { id := ⟨1⟩, generation := ⟨1⟩, name := ascii "default", enabled := true }

example : makeDefaultPolicy.validate = .ok () := by decide +kernel

/-! ### Sample inputs

One policy and the windows of one destination, for the concrete runs of the modules
above this one. -/

def sampleStamp (klass : EvidenceClass) (window : WindowId) (now : Timestamp) : EvidenceStamp :=
  { state := .present, klass, window, provenance := ⟨1⟩, provenanceGeneration := ⟨1⟩
    observedAt := now }

def sampleRow (id rate : UInt64) : SenderObservation :=
  { identity := { sender := ⟨id⟩, incarnation := ⟨1⟩, flow := ⟨id⟩ }
    offeredRate := ⟨rate⟩, firstArrival := ⟨10⟩, lastArrival := ⟨20⟩ }

/-- A window of a destination that serves 1000 bytes per second. -/
def sampleBundle (window : UInt64) (now : Int64) (senders : List SenderObservation) :
    EvidenceBundle :=
  { event := ⟨1⟩, eventGeneration := ⟨1⟩, destination := ⟨1⟩, window := ⟨window⟩, now := ⟨now⟩
    windowStart := ⟨1⟩, windowEnd := ⟨100⟩
    fanInStamp := sampleStamp .fanIn ⟨window⟩ ⟨now⟩
    senders
    capacityStamp := sampleStamp .capacity ⟨window⟩ ⟨now⟩
    capacity := { destination := ⟨1⟩, serviceRate := ⟨1000⟩ }
    queueStamp := sampleStamp .queue ⟨window⟩ ⟨now⟩
    timingStamp := sampleStamp .arrivalTiming ⟨window⟩ ⟨now⟩
    rateStamp := sampleStamp .aggregateRate ⟨window⟩ ⟨now⟩
    provenanceStamp := sampleStamp .provenance ⟨window⟩ ⟨now⟩
    epoch := ⟨1⟩, boot := ⟨1⟩, worker := ⟨1⟩, lease := ⟨1⟩ }

/-- The default policy for a population of two, with recovery enabled. -/
def samplePolicy : GovernorPolicy :=
  { makeDefaultPolicy with
    synchronization := { manyToOneMinSenders := 2, minSynchronizedSenders := 2 }
    recovery := { enabled := true } }

end IncastGovernor
