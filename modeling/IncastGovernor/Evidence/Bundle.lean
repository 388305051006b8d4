import IncastGovernor.Evidence.Units

/-! The evidence model: service classes, the eight evidence classes with their
stamps, the observations of one window and the bundle the governor evaluates. -/

namespace IncastGovernor

inductive ServiceClass where
  | bestEffort | bulk | interactive | latencySensitive | control | replication
  deriving DecidableEq

def kServiceClassCount : ℕ := 6

def serviceStrength : ServiceClass → UInt8
  | .bestEffort => 0
  | .bulk => 1
  | .interactive => 2
  | .latencySensitive => 3
  | .control => 4
  | .replication => 5

def ServiceClass.toText : ServiceClass → Text
  | .bestEffort => ascii "BestEffort"
  | .bulk => ascii "Bulk"
  | .interactive => ascii "Interactive"
  | .latencySensitive => ascii "LatencySensitive"
  | .control => ascii "Control"
  | .replication => ascii "Replication"

inductive EvidenceClass where
  | fanIn | arrivalTiming | aggregateRate | destination | capacity | queue | service | provenance
  deriving DecidableEq

/-- The classes in index order. -/
def EvidenceClass.all : List EvidenceClass :=
  [.fanIn, .arrivalTiming, .aggregateRate, .destination, .capacity, .queue, .service, .provenance]

theorem EvidenceClass.mem_all (klass : EvidenceClass) : klass ∈ EvidenceClass.all := by
  cases klass <;> decide

def EvidenceClass.toText : EvidenceClass → Text
  | .fanIn => ascii "FanIn"
  | .arrivalTiming => ascii "ArrivalTiming"
  | .aggregateRate => ascii "AggregateRate"
  | .destination => ascii "Destination"
  | .capacity => ascii "Capacity"
  | .queue => ascii "Queue"
  | .service => ascii "Service"
  | .provenance => ascii "Provenance"

/-- `std::array<T, kEvidenceClassCount>`, indexed by the evidence class. -/
structure PerClass (α : Type) where
  fanIn : α
  arrivalTiming : α
  aggregateRate : α
  destination : α
  capacity : α
  queue : α
  service : α
  provenance : α
  deriving DecidableEq

namespace PerClass

variable {α : Type}

def get (a : PerClass α) : EvidenceClass → α
  | .fanIn => a.fanIn
  | .arrivalTiming => a.arrivalTiming
  | .aggregateRate => a.aggregateRate
  | .destination => a.destination
  | .capacity => a.capacity
  | .queue => a.queue
  | .service => a.service
  | .provenance => a.provenance

def ofFn (f : EvidenceClass → α) : PerClass α where
  fanIn := f .fanIn
  arrivalTiming := f .arrivalTiming
  aggregateRate := f .aggregateRate
  destination := f .destination
  capacity := f .capacity
  queue := f .queue
  service := f .service
  provenance := f .provenance

@[simp] theorem get_ofFn (f : EvidenceClass → α) (klass : EvidenceClass) :
    (ofFn f).get klass = f klass := by
  cases klass <;> rfl

end PerClass

inductive EvidenceState where
  | unknown | present | stale | contradictory | reordered | outOfWindow | superseded
  deriving DecidableEq

structure EvidenceStamp where
  state : EvidenceState := .unknown
  klass : EvidenceClass := .fanIn
  window : WindowId := {}
  windowGeneration : WindowGeneration := {}
  provenance : ProvenanceId := {}
  provenanceGeneration : ProvenanceGeneration := {}
  observedAt : Timestamp := {}
  validUntil : Timestamp := {}
  sequence : UInt64 := 0
  sampleCount : UInt32 := 0
  truncated : Bool := false

structure SenderObservation where
  identity : SenderIdentity := {}
  service : ServiceClass := .bestEffort
  protectedObligation : Bool := false
  offeredRate : Rate := {}
  transferred : Bytes := {}
  outstanding : Bytes := {}
  firstArrival : Timestamp := {}
  lastArrival : Timestamp := {}
  attempts : UInt32 := 1

structure QueueObservation where
  queue : QueueId := {}
  resource : ResourceId := {}
  occupancy : Bytes := {}
  capacity : Bytes := {}
  highWatermark : Bytes := {}
  dropEvents : UInt64 := 0
  ecnMarks : UInt64 := 0
  observedAt : Timestamp := {}
  resourceGeneration : CapacityGeneration := {}

structure DestinationCapacity where
  destination : DestinationId := {}
  resource : ResourceId := {}
  resourceGeneration : CapacityGeneration := {}
  serviceRate : Rate := {}
  queueCapacity : Bytes := {}
  bufferCapacity : Bytes := {}
  admissionLimit : UInt32 := 0
  protectedFloorRate : Rate := {}
  strongestProtected : ServiceClass := .bestEffort

structure EvidenceBundle where
  event : EventId := {}
  eventGeneration : EventGeneration := {}
  destination : DestinationId := {}
  destinationGeneration : DestinationGeneration := {}
  window : WindowId := {}
  windowGeneration : WindowGeneration := {}
  windowStart : Timestamp := {}
  windowEnd : Timestamp := {}
  now : Timestamp := {}
  fanInStamp : EvidenceStamp := {}
  senders : List SenderObservation := []
  capacityStamp : EvidenceStamp := {}
  capacity : DestinationCapacity := {}
  queueStamp : EvidenceStamp := {}
  queues : List QueueObservation := []
  timingStamp : EvidenceStamp := {}
  rateStamp : EvidenceStamp := {}
  serviceStamp : EvidenceStamp := {}
  provenanceStamp : EvidenceStamp := {}
  policyStamp : EvidenceStamp := {}
  epoch : EpochId := {}
  boot : BootIncarnation := {}
  worker : WorkerId := {}
  lease : LeaseId := {}
  leaseExpiry : Timestamp := {}

namespace EvidenceBundle

def structurallyValid (bundle : EvidenceBundle) : Prop :=
  bundle.destination.valid ∧ bundle.window.valid ∧ bundle.event.valid ∧ bundle.now.valid ∧
    ¬(bundle.windowStart.valid ∧ bundle.windowEnd.valid ∧ bundle.windowEnd < bundle.windowStart) ∧
    bundle.senders.length ≤ kMaxSendersPerWindow ∧ bundle.queues.length ≤ kMaxQueueObservations

instance (bundle : EvidenceBundle) : Decidable bundle.structurallyValid := by
  delta structurallyValid; infer_instance

/-- The stamp that carries an evidence class; the destination and the capacity
class share one. -/
def stampFor (bundle : EvidenceBundle) : EvidenceClass → EvidenceStamp
  | .fanIn => bundle.fanInStamp
  | .arrivalTiming => bundle.timingStamp
  | .aggregateRate => bundle.rateStamp
  | .destination => bundle.capacityStamp
  | .capacity => bundle.capacityStamp
  | .queue => bundle.queueStamp
  | .service => bundle.serviceStamp
  | .provenance => bundle.provenanceStamp

end EvidenceBundle

/-- Metrics derived from one bundle. -/
structure FanInMetrics where
  activeSenders : UInt32 := 0
  distinctFlows : UInt32 := 0
  populationSaturated : Bool := false
  protectedSenders : UInt32 := 0
  collidedSenders : UInt32 := 0
  earliestArrival : Timestamp := {}
  latestArrival : Timestamp := {}
  arrivalSpread : Duration := {}
  windowWidth : Duration := {}
  synchronizationBp : UInt32 := 0
  aggregateOffered : Rate := {}
  synchronizedOffered : Rate := {}
  protectedOffered : Rate := {}
  penalizableOffered : Rate := {}
  serviceRate : Rate := {}
  queueCapacity : Bytes := {}
  queueOccupancy : Bytes := {}
  highWatermark : Bytes := {}
  bufferHeadroom : Bytes := {}
  queuePressureBp : BasisPoints := {}
  oversubscriptionBp : BasisPoints := {}
  dropEvents : UInt64 := 0
  ecnMarks : UInt64 := 0
  collisions : List SenderCollision := []

end IncastGovernor
