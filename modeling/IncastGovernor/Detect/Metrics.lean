import Mathlib.Data.List.Dedup
import Mathlib.Data.List.Sort
import IncastGovernor.Policy.Document

/-! The metrics of one window: the sender rows that count, their offered sums and
arrivals, the collided identities, the worst queue and the synchronization evidence.
All of it is a function of the bundle and the policy. -/

namespace IncastGovernor

/-- `is_protected_sender`: an explicit obligation, or a class above the ceiling. -/
def isProtectedSender (sender : SenderObservation) (policy : GovernorPolicy) : Prop :=
  (policy.protection.neverPenalizeExplicitlyProtected ∧ sender.protectedObligation) ∨
    serviceStrength sender.service > serviceStrength policy.protection.strongestMitigableClass

instance (sender : SenderObservation) (policy : GovernorPolicy) :
    Decidable (isProtectedSender sender policy) := by
  delta isProtectedSender; infer_instance

/-- The rows every detector loop visits: within the population bound, with a sender
and an incarnation. -/
def countedRows (bundle : EvidenceBundle) : List SenderObservation :=
  (bundle.senders.take kMaxSendersPerWindow).filter fun sender => sender.identity.valid

theorem countedRows_of_structurallyValid {bundle : EvidenceBundle}
    (hs : bundle.structurallyValid) :
    countedRows bundle = bundle.senders.filter fun sender => sender.identity.valid := by
  have hlen : bundle.senders.length ≤ kMaxSendersPerWindow := hs.2.2.2.2.2.1
  rw [countedRows, List.take_of_length_le hlen]

theorem mem_countedRows {bundle : EvidenceBundle} (hs : bundle.structurallyValid)
    {row : SenderObservation} :
    row ∈ countedRows bundle ↔ row ∈ bundle.senders ∧ row.identity.valid := by
  rw [countedRows_of_structurallyValid hs, List.mem_filter, decide_eq_true_iff]

/-! ### Identity collisions -/

/-- What `detect_collisions` accumulates for one sender id. -/
structure CollisionAggregate where
  occurrences : UInt32 := 0
  incarnations : List BootIncarnation := []
  weakestService : UInt8 := 0xFF
  strongestService : UInt8 := 0
  protectedSeen : Bool := false
  unprotectedSeen : Bool := false

namespace CollisionAggregate

def add (aggregate : CollisionAggregate) (sender : SenderObservation) : CollisionAggregate where
  occurrences := aggregate.occurrences + 1
  incarnations := aggregate.incarnations.insert sender.identity.incarnation
  weakestService := min aggregate.weakestService (serviceStrength sender.service)
  strongestService := max aggregate.strongestService (serviceStrength sender.service)
  protectedSeen := aggregate.protectedSeen || sender.protectedObligation
  unprotectedSeen := aggregate.unprotectedSeen || !sender.protectedObligation

def kind (aggregate : CollisionAggregate) : CollisionKind :=
  if aggregate.incarnations.length > 1 then .duplicateSenderDifferentIncarnation
  else if aggregate.weakestService ≠ aggregate.strongestService ∨
      (aggregate.protectedSeen ∧ aggregate.unprotectedSeen) then .contradictoryAttributes
  else .none

end CollisionAggregate

/-- The entry of the `by_sender` map at a sender id. -/
def collisionAggregate (bundle : EvidenceBundle) (id : SenderId) : CollisionAggregate :=
  ((countedRows bundle).filter fun sender => sender.identity.sender = id).foldl
    CollisionAggregate.add {}

def collisionOf (bundle : EvidenceBundle) (id : SenderId) : Option SenderCollision :=
  let aggregate := collisionAggregate bundle id
  if aggregate.kind = .none then none
  else some { sender := id, kind := aggregate.kind, occurrences := aggregate.occurrences }

/-- The collided senders by ascending id; each id occurs once, so the kind never
decides the order. -/
def detectCollisions (bundle : EvidenceBundle) : List SenderCollision :=
  let ids := ((countedRows bundle).map fun sender => sender.identity.sender).dedup
  (ids.filterMap (collisionOf bundle)).insertionSort fun a b => a.sender.value ≤ b.sender.value

/-! ### What the rows of an uncollided sender agree on -/

/-- A row that went into an aggregate. -/
structure CollisionAggregate.Covers (aggregate : CollisionAggregate) (row : SenderObservation) :
    Prop where
  incarnation : row.identity.incarnation ∈ aggregate.incarnations
  weakest : aggregate.weakestService ≤ serviceStrength row.service
  strongest : serviceStrength row.service ≤ aggregate.strongestService
  flagged : row.protectedObligation = true → aggregate.protectedSeen = true
  unflagged : row.protectedObligation = false → aggregate.unprotectedSeen = true

namespace CollisionAggregate

variable {aggregate : CollisionAggregate} {row other : SenderObservation}

theorem covers_add (aggregate : CollisionAggregate) (row : SenderObservation) :
    (aggregate.add row).Covers row where
  incarnation := List.mem_insert_self
  weakest := by
    rw [UInt8.le_iff_toNat_le]
    show (min _ _ : UInt8).toNat ≤ _
    rw [UInt8.toNat_min]
    exact min_le_right _ _
  strongest := by
    rw [UInt8.le_iff_toNat_le]
    show _ ≤ (max _ _ : UInt8).toNat
    rw [UInt8.toNat_max]
    exact le_max_right _ _
  flagged h := by simp [add, h]
  unflagged h := by simp [add, h]

theorem Covers.add (h : aggregate.Covers row) (other : SenderObservation) :
    (aggregate.add other).Covers row where
  incarnation := List.mem_insert_of_mem h.incarnation
  weakest := by
    rw [UInt8.le_iff_toNat_le]
    show (min _ _ : UInt8).toNat ≤ _
    rw [UInt8.toNat_min]
    exact (min_le_left _ _).trans (UInt8.le_iff_toNat_le.mp h.weakest)
  strongest := by
    rw [UInt8.le_iff_toNat_le]
    show _ ≤ (max _ _ : UInt8).toNat
    rw [UInt8.toNat_max]
    exact (UInt8.le_iff_toNat_le.mp h.strongest).trans (le_max_left _ _)
  flagged hf := by simp [CollisionAggregate.add, h.flagged hf]
  unflagged hf := by simp [CollisionAggregate.add, h.unflagged hf]

theorem covers_foldl {rows : List SenderObservation} (aggregate : CollisionAggregate)
    (h : row ∈ rows ∨ aggregate.Covers row) : (rows.foldl CollisionAggregate.add aggregate).Covers row := by
  induction rows generalizing aggregate with
  | nil => exact h.resolve_left (by simp)
  | cons first rest ih =>
    rw [List.foldl_cons]
    apply ih
    rcases h with h | h
    · rcases List.mem_cons.mp h with rfl | h
      · exact Or.inr (covers_add aggregate row)
      · exact Or.inl h
    · exact Or.inr (h.add first)

/-- Two rows of an aggregate without a collision carry the same incarnation, class
strength and obligation flag. -/
theorem agree_of_kind_none (hk : aggregate.kind = .none) (hr : aggregate.Covers row)
    (ho : aggregate.Covers other) :
    row.identity.incarnation = other.identity.incarnation ∧
      serviceStrength row.service = serviceStrength other.service ∧
      row.protectedObligation = other.protectedObligation := by
  unfold kind at hk
  split_ifs at hk with h1 h2
  push Not at h2
  refine ⟨?_, ?_, ?_⟩
  · have hlen : aggregate.incarnations.length ≤ 1 := Nat.le_of_not_lt h1
    obtain ⟨x, hx⟩ : ∃ x, aggregate.incarnations = [x] := by
      rw [← List.length_eq_one_iff]
      have := List.length_pos_of_mem hr.incarnation
      omega
    have h3 := hr.incarnation
    have h4 := ho.incarnation
    rw [hx, List.mem_singleton] at h3 h4
    rw [h3, h4]
  · have hr1 := UInt8.le_iff_toNat_le.mp hr.weakest
    have hr2 := UInt8.le_iff_toNat_le.mp hr.strongest
    have ho1 := UInt8.le_iff_toNat_le.mp ho.weakest
    have ho2 := UInt8.le_iff_toNat_le.mp ho.strongest
    rw [← h2.1] at hr2 ho2
    exact UInt8.toNat_inj.mp (by omega)
  · cases hrf : row.protectedObligation <;> cases hof : other.protectedObligation
    · rfl
    · exact absurd (hr.unflagged hrf) (h2.2 (ho.flagged hof))
    · exact absurd (ho.unflagged hof) (h2.2 (hr.flagged hrf))
    · rfl

end CollisionAggregate

theorem collisionAggregate_covers {bundle : EvidenceBundle} {row : SenderObservation}
    (h : row ∈ countedRows bundle) : (collisionAggregate bundle row.identity.sender).Covers row := by
  apply CollisionAggregate.covers_foldl
  exact Or.inl (List.mem_filter.mpr ⟨h, by simp⟩)

theorem mem_detectCollisions {bundle : EvidenceBundle} {id : SenderId} :
    id ∈ (detectCollisions bundle).map (fun c => c.sender) ↔
      (∃ row ∈ countedRows bundle, row.identity.sender = id) ∧
        (collisionAggregate bundle id).kind ≠ .none := by
  unfold detectCollisions
  simp only [List.mem_map, List.mem_insertionSort, List.mem_filterMap, List.mem_dedup]
  constructor
  · rintro ⟨collision, ⟨other, hid, hc⟩, rfl⟩
    simp only [collisionOf] at hc
    split_ifs at hc with hk
    rw [← Option.some.inj hc]
    exact ⟨hid, hk⟩
  · rintro ⟨hid, hk⟩
    let collision : SenderCollision :=
      { sender := id, kind := (collisionAggregate bundle id).kind
        occurrences := (collisionAggregate bundle id).occurrences }
    exact ⟨collision, ⟨id, hid, by simp [collisionOf, hk, collision]⟩, rfl⟩

/-- The counted rows of an uncollided sender are protected or not together. -/
theorem isProtectedSender_congr_of_not_collided {bundle : EvidenceBundle} {policy : GovernorPolicy}
    {row other : SenderObservation} (hr : row ∈ countedRows bundle) (ho : other ∈ countedRows bundle)
    (hs : row.identity.sender = other.identity.sender)
    (hc : row.identity.sender ∉ (detectCollisions bundle).map fun c => c.sender) :
    isProtectedSender row policy ↔ isProtectedSender other policy := by
  have hk : (collisionAggregate bundle row.identity.sender).kind = .none := by
    by_contra hne
    exact hc (mem_detectCollisions.mpr ⟨⟨row, hr, rfl⟩, hne⟩)
  have hco : (collisionAggregate bundle row.identity.sender).Covers other := by
    rw [hs]
    exact collisionAggregate_covers ho
  obtain ⟨_, hstrength, hflag⟩ :=
    CollisionAggregate.agree_of_kind_none hk (collisionAggregate_covers hr) hco
  unfold isProtectedSender
  rw [hstrength, hflag]

/-! ### Metrics -/

def Timestamp.earlier (a b : Timestamp) : Timestamp := if b < a then b else a

def Timestamp.later (a b : Timestamp) : Timestamp := if a < b then b else a

/-- The arrivals of the counted rows that recorded one. -/
def arrivals (bundle : EvidenceBundle) : List Timestamp :=
  ((countedRows bundle).map fun sender => sender.firstArrival).filter fun t => t.valid

/-- The first and the last arrival; absent instants when there is none. -/
def arrivalBounds (bundle : EvidenceBundle) : Timestamp × Timestamp :=
  match arrivals bundle with
  | [] => ({}, {})
  | first :: rest => (rest.foldl Timestamp.earlier first, rest.foldl Timestamp.later first)

def offeredSum (rows : List SenderObservation) : UInt64 :=
  saturatingSum (rows.map fun sender => sender.offeredRate.bytesPerSecond)

/-- The exact offer of some rows. -/
def exactOffer (rows : List SenderObservation) : ℕ :=
  (rows.map fun row => row.offeredRate.bytesPerSecond.toNat).sum

theorem offeredSum_toNat (rows : List SenderObservation) :
    (offeredSum rows).toNat = min (exactOffer rows) (2 ^ 64 - 1) := by
  unfold offeredSum exactOffer
  rw [saturatingSum_toNat, List.map_map]
  rfl

theorem exactOffer_le_of_sublist {rows all : List SenderObservation} (h : rows.Sublist all) :
    exactOffer rows ≤ exactOffer all :=
  (h.map _).sum_le_sum fun _ _ => Nat.zero_le _

theorem exactOffer_split (p : SenderObservation → Bool) (rows : List SenderObservation) :
    exactOffer (rows.filter p) + exactOffer (rows.filter fun row => !p row) = exactOffer rows := by
  have hperm := (List.filter_append_perm p rows).map fun row => row.offeredRate.bytesPerSecond.toNat
  have hsum := hperm.sum_eq
  rw [List.map_append, List.sum_append] at hsum
  exact hsum

def queuePressure (queue : QueueObservation) : BasisPoints :=
  ratioBp queue.occupancy.count queue.capacity.count

/-- The most pressurized queue; equal pressures go to the smaller queue id. -/
def worstQueue (queues : List QueueObservation) : Option QueueObservation :=
  queues.foldl (fun worst queue =>
    match worst with
    | none => some queue
    | some kept =>
      if (queuePressure queue).value > (queuePressure kept).value ∨
          ((queuePressure queue).value = (queuePressure kept).value ∧ queue.queue < kept.queue) then
        some queue
      else some kept) none

def computeMetrics (bundle : EvidenceBundle) (policy : GovernorPolicy) : FanInMetrics :=
  let rows := countedRows bundle
  let protectedRows := rows.filter fun sender => isProtectedSender sender policy
  let aggregate := offeredSum rows
  let protectedOffer := offeredSum protectedRows
  let outstanding := saturatingSum (rows.map fun sender => sender.outstanding.count)
  let flows := (rows.map fun sender => sender.identity.flow).filter fun flow => flow.valid
  let (earliest, latest) := arrivalBounds bundle
  let collisions := detectCollisions bundle
  let buffer := bundle.capacity.bufferCapacity.count
  let queue := worstQueue (bundle.queues.take kMaxQueueObservations)
  let occupancy := (queue.map fun q => q.occupancy).getD {}
  let queueCapacity := (queue.map fun q =>
    if q.capacity.count ≠ 0 then q.capacity else bundle.capacity.queueCapacity).getD
      bundle.capacity.queueCapacity
  { activeSenders := UInt32.ofNat rows.length
    distinctFlows := UInt32.ofNat flows.dedup.length
    populationSaturated := bundle.fanInStamp.truncated || bundle.senders.length > kMaxSendersPerWindow
    protectedSenders := UInt32.ofNat protectedRows.length
    collidedSenders := UInt32.ofNat collisions.length
    earliestArrival := earliest
    latestArrival := latest
    arrivalSpread :=
      if arrivals bundle ≠ [] ∧ earliest ≤ latest then ⟨latest.nanos - earliest.nanos⟩ else {}
    windowWidth :=
      if bundle.windowStart.valid ∧ bundle.windowEnd.valid ∧ bundle.windowStart ≤ bundle.windowEnd then
        ⟨bundle.windowEnd.nanos - bundle.windowStart.nanos⟩
      else {}
    aggregateOffered := ⟨aggregate⟩
    protectedOffered := ⟨protectedOffer⟩
    penalizableOffered := ⟨if aggregate ≥ protectedOffer then aggregate - protectedOffer else 0⟩
    serviceRate := bundle.capacity.serviceRate
    queueCapacity := queueCapacity
    queueOccupancy := occupancy
    highWatermark := (queue.map fun q => q.highWatermark).getD {}
    bufferHeadroom := ⟨if buffer > outstanding then buffer - outstanding else 0⟩
    queuePressureBp :=
      if queue.isSome then ratioBp occupancy.count queueCapacity.count else BasisPoints.of 0
    oversubscriptionBp := ratioBp aggregate bundle.capacity.serviceRate.bytesPerSecond
    dropEvents := (queue.map fun q => q.dropEvents).getD 0
    ecnMarks := (queue.map fun q => q.ecnMarks).getD 0
    collisions := collisions }

/-! ### Synchronization -/

structure SynchronizationEvidence where
  evaluated : Bool := false
  population : UInt32 := 0
  synchronizedSenders : UInt32 := 0
  arrivalSpread : Duration := {}
  windowWidth : Duration := {}
  syncWindowBound : Duration := {}
  arrivalCompressionBp : BasisPoints := {}
  synchronizedShareBp : BasisPoints := {}
  populationFloorMet : Bool := false
  windowCompressed : Bool := false
  shareSufficient : Bool := false
  synchronized : Bool := false
  saturated : Bool := false

def SynchronizationEvidence.summary (evidence : SynchronizationEvidence) : Text :=
  if ¬evidence.evaluated then ascii "synchronization=not-evaluated"
  else
    ascii "population=" ++ formatU64 evidence.population.toUInt64 ++
    ascii " synchronized=" ++ formatU64 evidence.synchronizedSenders.toUInt64 ++
    ascii " spread_ns=" ++ formatI64 evidence.arrivalSpread.nanos ++
    ascii " bound_ns=" ++ formatI64 evidence.syncWindowBound.nanos ++
    ascii " compression_bp=" ++ formatU64 evidence.arrivalCompressionBp.value.toUInt64 ++
    ascii " share_bp=" ++ formatU64 evidence.synchronizedShareBp.value.toUInt64 ++
    if evidence.synchronized then ascii " verdict=synchronized"
    else ascii " verdict=not-synchronized"

/-- `is_synchronized_sender`. -/
def isSynchronizedSender (sender : SenderObservation) (earliest : Timestamp)
    (synchronization : SynchronizationEvidence) : Prop :=
  sender.firstArrival.valid ∧ earliest.valid ∧ ¬sender.firstArrival < earliest ∧
    sender.firstArrival.nanos - earliest.nanos ≤ synchronization.syncWindowBound.nanos

instance (sender : SenderObservation) (earliest : Timestamp)
    (synchronization : SynchronizationEvidence) :
    Decidable (isSynchronizedSender sender earliest synchronization) := by
  delta isSynchronizedSender; infer_instance

/-- The rows whose arrival lies inside the synchronization bound. The population
bound of the other loops is not applied here. -/
def synchronizedRows (bundle : EvidenceBundle) (metrics : FanInMetrics) (policy : GovernorPolicy) :
    List SenderObservation :=
  if metrics.earliestArrival.valid then
    let limit := metrics.earliestArrival.nanos + policy.synchronization.syncWindowBound.nanos
    bundle.senders.filter fun sender =>
      sender.identity.valid ∧ sender.firstArrival.valid ∧ sender.firstArrival.nanos ≤ limit
  else []

/-- One minus the consumed share of the window. -/
def arrivalCompression (metrics : FanInMetrics) : BasisPoints :=
  if metrics.windowWidth.positive then
    let consumed := (ratioBp metrics.arrivalSpread.nanos.toUInt64
      metrics.windowWidth.nanos.toUInt64).value
    let capped := if consumed > BasisPoints.kMax then BasisPoints.kMax else consumed
    BasisPoints.of (if 10000 > capped then 10000 - capped else 0)
  else BasisPoints.of 0

def computeSynchronization (bundle : EvidenceBundle) (metrics : FanInMetrics)
    (policy : GovernorPolicy) : SynchronizationEvidence :=
  let sync := policy.synchronization
  let rows := synchronizedRows bundle metrics policy
  let compression := arrivalCompression metrics
  let share := ratioBp (offeredSum rows) metrics.aggregateOffered.bytesPerSecond
  let populationFloorMet := decide (metrics.activeSenders ≥ sync.minSynchronizedSenders)
  let windowInsideBound := metrics.windowWidth.positive ∧ metrics.windowWidth ≤ sync.syncWindowBound
  let relativeOk := windowInsideBound ∨ compression.value ≥ sync.syncIndexThresholdBp
  let absoluteOk := metrics.arrivalSpread ≤ sync.syncWindowBound ∧ metrics.activeSenders > 0 ∧
    metrics.windowWidth.positive
  let windowCompressed := decide (absoluteOk ∧ relativeOk)
  let shareSufficient := decide (share.value ≥ sync.minAggregateShareBp)
  { evaluated := true
    population := metrics.activeSenders
    synchronizedSenders := UInt32.ofNat rows.length
    arrivalSpread := metrics.arrivalSpread
    windowWidth := metrics.windowWidth
    syncWindowBound := sync.syncWindowBound
    arrivalCompressionBp := compression
    synchronizedShareBp := share
    populationFloorMet
    windowCompressed
    shareSufficient
    synchronized := populationFloorMet && windowCompressed && shareSufficient
    saturated := metrics.populationSaturated }

end IncastGovernor
