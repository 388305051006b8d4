import Mathlib.Data.Prod.Lex
import IncastGovernor.Detect.Classify
import IncastGovernor.Foundation.Selection

/-! The queue evidence of a window. One queue is selected by the ratio of its occupancy to its
own capacity, and its occupancy is then reported against the destination's capacity when it
has none of its own; the drops reported are those of the selected queue. -/

namespace IncastGovernor

/-! ### Selection -/

/-- More pressure first, then the smaller id. -/
def queueKey (queue : QueueObservation) : ℕ ×ₗ ℕᵒᵈ :=
  toLex ((queuePressure queue).value.toNat, OrderDual.toDual queue.queue.value.toNat)

/-- The test by which a queue takes the place of the one kept so far. -/
def QueueObservation.overtakes (queue kept : QueueObservation) : Prop :=
  (queuePressure queue).value > (queuePressure kept).value ∨
    ((queuePressure queue).value = (queuePressure kept).value ∧ queue.queue < kept.queue)

theorem QueueObservation.overtakes_iff {queue kept : QueueObservation} :
    queue.overtakes kept ↔ queueKey kept < queueKey queue := by
  unfold queueKey overtakes
  rw [Prod.Lex.toLex_lt_toLex]
  refine or_congr UInt32.lt_iff_toNat_lt (and_congr ?_ UInt64.lt_iff_toNat_lt)
  rw [eq_comm, UInt32.toNat_inj]

theorem queueKey_injective {queue other : QueueObservation} (h : queueKey queue = queueKey other) :
    queue.queue = other.queue := by
  have hpair := Prod.ext_iff.mp (toLex.injective h)
  exact StrongId.ext (UInt64.toNat_inj.mp (OrderDual.toDual.injective hpair.2))

theorem worstQueue_eq_firstLargest (queues : List QueueObservation) :
    worstQueue queues = Foundation.firstLargest queueKey queues := by
  unfold worstQueue Foundation.firstLargest
  congr 1
  funext worst queue
  cases worst with
  | none => rfl
  | some kept => exact if_congr QueueObservation.overtakes_iff rfl rfl

/-- With distinct ids the order of the queues does not matter. -/
theorem worstQueue_perm {queues other : List QueueObservation} (h : queues.Perm other)
    (hid : (queues.map fun q => q.queue).Nodup) : worstQueue queues = worstQueue other := by
  rw [worstQueue_eq_firstLargest, worstQueue_eq_firstLargest]
  refine Foundation.firstLargest_perm h fun a ha b hb hab => ?_
  exact List.inj_on_of_nodup_map hid ha hb (queueKey_injective hab)

/-- The capacity a queue is reported against. -/
def reportedCapacity (bundle : EvidenceBundle) (queue : QueueObservation) : Bytes :=
  if queue.capacity.count ≠ 0 then queue.capacity else bundle.capacity.queueCapacity

/-- The pressure of a queue once it is selected. -/
def reportedPressure (bundle : EvidenceBundle) (queue : QueueObservation) : BasisPoints :=
  ratioBp queue.occupancy.count (reportedCapacity bundle queue).count

theorem reportedPressure_of_capacity {bundle : EvidenceBundle} {queue : QueueObservation}
    (h : queue.capacity.count ≠ 0) : reportedPressure bundle queue = queuePressure queue := by
  rw [reportedPressure, reportedCapacity, if_pos h, queuePressure]

theorem queuePressure_of_no_capacity {queue : QueueObservation} (h : queue.capacity.count = 0) :
    (queuePressure queue).value = 0 := by
  rw [queuePressure, h]
  rfl

theorem computeMetrics_queuePressureBp (bundle : EvidenceBundle) (policy : GovernorPolicy) :
    (computeMetrics bundle policy).queuePressureBp =
      ((worstQueue (bundle.queues.take kMaxQueueObservations)).map
        (reportedPressure bundle)).getD (BasisPoints.of 0) := by
  simp only [computeMetrics]
  cases worstQueue (bundle.queues.take kMaxQueueObservations) <;> rfl

theorem computeMetrics_dropEvents (bundle : EvidenceBundle) (policy : GovernorPolicy) :
    (computeMetrics bundle policy).dropEvents =
      ((worstQueue (bundle.queues.take kMaxQueueObservations)).map fun q => q.dropEvents).getD 0 :=
  rfl

/-! ### One more queue -/

/-- The instantaneous kind of a bundle under a policy. -/
def detectedKind (bundle : EvidenceBundle) (policy : GovernorPolicy) : IncidentKind :=
  let metrics := computeMetrics bundle policy
  classifyInstantaneous metrics (computeSynchronization bundle metrics policy) policy

def EvidenceBundle.appendQueue (bundle : EvidenceBundle) (queue : QueueObservation) :
    EvidenceBundle :=
  { bundle with queues := bundle.queues ++ [queue] }

/-- Congestion seen in one bundle is seen in another at least as strongly. -/
structure QueueEvidenceKept (before after : EvidenceBundle) (policy : GovernorPolicy) : Prop where
  pressure : (computeMetrics before policy).queuePressureBp.value ≤
    (computeMetrics after policy).queuePressureBp.value
  drops : (computeMetrics before policy).dropEvents ≤ (computeMetrics after policy).dropEvents
  rank : (detectedKind before policy).rank ≤ (detectedKind after policy).rank

/-- A stronger signal of the queue or of the rate never lowers the kind. -/
theorem classifyInstantaneous_rank_mono {metrics other : FanInMetrics}
    {synchronization : SynchronizationEvidence} {policy : GovernorPolicy}
    (hsenders : metrics.activeSenders = other.activeSenders)
    (hrate : metrics.oversubscriptionBp.value ≤ other.oversubscriptionBp.value)
    (hpressure : metrics.queuePressureBp.value ≤ other.queuePressureBp.value)
    (hdrops : metrics.dropEvents ≤ other.dropEvents) :
    (classifyInstantaneous metrics synchronization policy).rank ≤
      (classifyInstantaneous other synchronization policy).rank := by
  unfold classifyInstantaneous
  simp only [hsenders]
  by_cases he : ¬synchronization.evaluated
  · rw [if_pos he, if_pos he]
  rw [if_neg he, if_neg he]
  by_cases hn : other.activeSenders < policy.synchronization.manyToOneMinSenders
  · rw [if_pos hn, if_pos hn]
  rw [if_neg hn, if_neg hn]
  by_cases hs : ¬synchronization.synchronized
  · rw [if_pos hs, if_pos hs]
  rw [if_neg hs, if_neg hs]
  by_cases ha : other.oversubscriptionBp.value ≥ policy.pressure.collapseOversubscriptionBp ∨
      other.queuePressureBp.value ≥ policy.pressure.activeQueuePressureBp ∨
      other.dropEvents ≥ policy.pressure.dropEventsForActive
  · rw [if_pos ha]
    split_ifs <;> decide
  · have hnot : ¬(metrics.oversubscriptionBp.value ≥ policy.pressure.collapseOversubscriptionBp ∨
        metrics.queuePressureBp.value ≥ policy.pressure.activeQueuePressureBp ∨
        metrics.dropEvents ≥ policy.pressure.dropEventsForActive) := fun hor =>
      ha (hor.imp (fun h => UInt32.le_trans h hrate) (Or.imp (fun h => UInt32.le_trans h hpressure)
        fun h => UInt64.le_trans h hdrops))
    rw [if_neg ha, if_neg hnot]
    by_cases hr : other.oversubscriptionBp.value ≥ policy.pressure.riskOversubscriptionBp
    · rw [if_pos hr]
      split_ifs <;> decide
    · have hlow : ¬metrics.oversubscriptionBp.value ≥ policy.pressure.riskOversubscriptionBp :=
        fun h => hr (UInt32.le_trans h hrate)
      rw [if_neg hr, if_neg hlow]

theorem detectedKind_rank_le {before : EvidenceBundle} {queues : List QueueObservation}
    {policy : GovernorPolicy}
    (hpressure : (computeMetrics before policy).queuePressureBp.value ≤
      (computeMetrics { before with queues := queues } policy).queuePressureBp.value)
    (hdrops : (computeMetrics before policy).dropEvents ≤
      (computeMetrics { before with queues := queues } policy).dropEvents) :
    (detectedKind before policy).rank ≤
      (detectedKind { before with queues := queues } policy).rank := by
  have hsync : computeSynchronization before (computeMetrics before policy) policy =
      computeSynchronization { before with queues := queues }
        (computeMetrics { before with queues := queues } policy) policy := rfl
  unfold detectedKind
  simp only
  rw [← hsync]
  exact classifyInstantaneous_rank_mono rfl (UInt32.le_refl _) hpressure hdrops

theorem worstQueue_concat (queues : List QueueObservation) (queue : QueueObservation) :
    worstQueue (queues ++ [queue]) =
      Foundation.keepLarger queueKey (worstQueue queues) queue := by
  rw [worstQueue_eq_firstLargest, worstQueue_eq_firstLargest, Foundation.firstLargest_concat]

/-- A queue that overtakes the leading one hides nothing exactly when it drops no less and, where
the leading one is reported against the destination's capacity, presses no less. -/
theorem overtaking_keeps_iff {bundle : EvidenceBundle} {kept queue : QueueObservation}
    (h : queue.overtakes kept) :
    (reportedPressure bundle kept).value ≤ (reportedPressure bundle queue).value ↔
      (kept.capacity.count = 0 →
        (reportedPressure bundle kept).value ≤ (reportedPressure bundle queue).value) := by
  refine ⟨fun hle _ => hle, fun hle => ?_⟩
  by_cases hk : kept.capacity.count = 0
  · exact hle hk
  have hpressure : (queuePressure kept).value ≤ (queuePressure queue).value := by
    rcases h with h | ⟨h, -⟩
    · exact UInt32.le_of_lt h
    · exact UInt32.le_of_eq h.symm
  rw [reportedPressure_of_capacity hk]
  by_cases hq : queue.capacity.count = 0
  · rw [queuePressure_of_no_capacity hq] at hpressure
    exact UInt32.le_trans hpressure UInt32.zero_le
  · rwa [reportedPressure_of_capacity hq]

/-- The kind follows the two signals. -/
theorem appendQueue_kept_iff {bundle : EvidenceBundle} {policy : GovernorPolicy}
    {queue : QueueObservation} :
    QueueEvidenceKept bundle (bundle.appendQueue queue) policy ↔
      (computeMetrics bundle policy).queuePressureBp.value ≤
          (computeMetrics (bundle.appendQueue queue) policy).queuePressureBp.value ∧
        (computeMetrics bundle policy).dropEvents ≤
          (computeMetrics (bundle.appendQueue queue) policy).dropEvents :=
  ⟨fun h => ⟨h.pressure, h.drops⟩, fun h => ⟨h.1, h.2, detectedKind_rank_le h.1 h.2⟩⟩

theorem appendQueue_kept_of_full {bundle : EvidenceBundle} {policy : GovernorPolicy}
    {queue : QueueObservation} (h : ¬bundle.queues.length < kMaxQueueObservations) :
    QueueEvidenceKept bundle (bundle.appendQueue queue) policy := by
  have htake : (bundle.appendQueue queue).queues.take kMaxQueueObservations =
      bundle.queues.take kMaxQueueObservations :=
    List.take_append_of_le_length (Nat.not_lt.mp h)
  rw [appendQueue_kept_iff, computeMetrics_queuePressureBp, computeMetrics_queuePressureBp,
    computeMetrics_dropEvents, computeMetrics_dropEvents, htake]
  exact ⟨UInt32.le_refl _, UInt64.le_refl _⟩

/-- A further queue hides nothing seen before exactly when it does not take the place of a leading
queue that dropped more, or that presses harder against the destination's capacity. -/
theorem appendQueue_keeps_iff (bundle : EvidenceBundle) (policy : GovernorPolicy)
    (queue : QueueObservation) :
    QueueEvidenceKept bundle (bundle.appendQueue queue) policy ↔
      ∀ kept, Foundation.Leads queueKey bundle.queues kept →
        bundle.queues.length < kMaxQueueObservations → queue.overtakes kept →
          kept.dropEvents ≤ queue.dropEvents ∧
            (kept.capacity.count = 0 →
              (reportedPressure bundle kept).value ≤ (reportedPressure bundle queue).value) := by
  by_cases hlen : bundle.queues.length < kMaxQueueObservations
  swap
  · exact iff_of_true (appendQueue_kept_of_full hlen) fun _ _ h => absurd h hlen
  have hbefore : bundle.queues.take kMaxQueueObservations = bundle.queues :=
    List.take_of_length_le hlen.le
  have hafter : (bundle.appendQueue queue).queues.take kMaxQueueObservations =
      bundle.queues ++ [queue] := by
    refine List.take_of_length_le ?_
    rw [EvidenceBundle.appendQueue, List.length_append]
    exact hlen
  have hreported : reportedPressure (bundle.appendQueue queue) = reportedPressure bundle := rfl
  rw [appendQueue_kept_iff, computeMetrics_queuePressureBp, computeMetrics_queuePressureBp,
    computeMetrics_dropEvents, computeMetrics_dropEvents, hbefore, hafter, hreported,
    worstQueue_concat, worstQueue_eq_firstLargest]
  cases hw : Foundation.firstLargest queueKey bundle.queues with
  | none =>
    refine iff_of_true ⟨UInt32.zero_le, UInt64.zero_le⟩ fun kept hk => ?_
    rw [Foundation.firstLargest_eq_some_iff.mpr hk] at hw
    cases hw
  | some kept =>
    have hunique : ∀ other, Foundation.Leads queueKey bundle.queues other ↔ other = kept :=
      fun other => by
        rw [← Foundation.firstLargest_eq_some_iff, hw, Option.some.injEq, eq_comm]
    simp only [hunique, forall_eq, hlen, true_implies]
    by_cases ho : queue.overtakes kept
    · have hkeep : Foundation.keepLarger queueKey (some kept) queue = some queue :=
        if_pos (QueueObservation.overtakes_iff.mp ho)
      simp only [hkeep, ho, true_implies]
      rw [← overtaking_keeps_iff ho, and_comm]
      rfl
    · have hkeep : Foundation.keepLarger queueKey (some kept) queue = some kept :=
        if_neg (mt QueueObservation.overtakes_iff.mpr ho)
      simp only [hkeep, ho]
      exact iff_of_true ⟨UInt32.le_refl _, UInt64.le_refl _⟩ fun h => h.elim

/-- Two synchronized senders below the service rate, behind a queue without a capacity of its own
that fills nine tenths of the destination's and drops. -/
def droppingBundle : EvidenceBundle :=
  { sampleBundle 1 1000000000 [sampleRow 1 400, sampleRow 2 400] with
    capacity := { destination := ⟨1⟩, serviceRate := ⟨1000⟩, queueCapacity := ⟨100⟩ }
    queues := [{ queue := ⟨1⟩, occupancy := ⟨90⟩, dropEvents := 5 }] }

/-- A nearly empty queue hides the drops, the pressure and the active incast. -/
theorem quiet_queue_hides_drops :
    ¬∀ bundle policy queue, QueueEvidenceKept bundle (bundle.appendQueue queue) policy := by
  intro h
  have hrank := (h droppingBundle samplePolicy
    { queue := ⟨2⟩, occupancy := ⟨1⟩, capacity := ⟨100⟩ }).rank
  have hbroken : ¬(detectedKind droppingBundle samplePolicy).rank ≤
      (detectedKind (droppingBundle.appendQueue
        { queue := ⟨2⟩, occupancy := ⟨1⟩, capacity := ⟨100⟩ }) samplePolicy).rank := by
    decide +kernel
  exact hbroken hrank

end IncastGovernor
