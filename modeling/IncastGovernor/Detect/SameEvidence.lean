import IncastGovernor.Detect.Queues
import IncastGovernor.Detect.Ranking
import IncastGovernor.Detect.Synchrony

/-! Bundles that say the same. Two bundles that count the same rows, keep the same rows of each
identity and select the same queue, in whatever order, have the same metrics, collisions,
synchronization evidence, contributions and classification. -/

namespace IncastGovernor

/-! ### Collisions -/

/-- Aggregates that differ in the order of their incarnations. -/
structure CollisionAggregate.Same (a b : CollisionAggregate) : Prop where
  occurrences : a.occurrences = b.occurrences
  incarnations : a.incarnations.Perm b.incarnations
  weakest : a.weakestService = b.weakestService
  strongest : a.strongestService = b.strongestService
  protectedSeen : a.protectedSeen = b.protectedSeen
  unprotectedSeen : a.unprotectedSeen = b.unprotectedSeen

namespace CollisionAggregate

variable {a b : CollisionAggregate} {row other : SenderObservation}

theorem same_equivalence : Equivalence Same where
  refl _ := ⟨rfl, List.Perm.refl _, rfl, rfl, rfl, rfl⟩
  symm h := ⟨h.occurrences.symm, h.incarnations.symm, h.weakest.symm, h.strongest.symm,
    h.protectedSeen.symm, h.unprotectedSeen.symm⟩
  trans h k := ⟨h.occurrences.trans k.occurrences, h.incarnations.trans k.incarnations,
    h.weakest.trans k.weakest, h.strongest.trans k.strongest,
    h.protectedSeen.trans k.protectedSeen, h.unprotectedSeen.trans k.unprotectedSeen⟩

theorem Same.add (h : a.Same b) (row : SenderObservation) : (a.add row).Same (b.add row) where
  occurrences := congrArg (· + 1) h.occurrences
  incarnations := h.incarnations.insert _
  weakest := congrArg (min · _) h.weakest
  strongest := congrArg (max · _) h.strongest
  protectedSeen := congrArg (· || _) h.protectedSeen
  unprotectedSeen := congrArg (· || _) h.unprotectedSeen

theorem same_add_add (a : CollisionAggregate) (row other : SenderObservation) :
    ((a.add row).add other).Same ((a.add other).add row) where
  occurrences := rfl
  incarnations := List.perm_insert_swap _ _ _
  weakest := by
    rw [← UInt8.toNat_inj]
    show (min (min _ _) _ : UInt8).toNat = (min (min _ _) _ : UInt8).toNat
    simp only [UInt8.toNat_min]
    exact min_right_comm _ _ _
  strongest := by
    rw [← UInt8.toNat_inj]
    show (max (max _ _) _ : UInt8).toNat = (max (max _ _) _ : UInt8).toNat
    simp only [UInt8.toNat_max]
    exact max_right_comm _ _ _
  protectedSeen := by simp only [CollisionAggregate.add, Bool.or_right_comm]
  unprotectedSeen := by simp only [CollisionAggregate.add, Bool.or_right_comm]

theorem Same.kind (h : a.Same b) : a.kind = b.kind := by
  unfold CollisionAggregate.kind
  rw [h.incarnations.length_eq, h.weakest, h.strongest, h.protectedSeen, h.unprotectedSeen]

end CollisionAggregate

/-- The bundle with other rows. -/
def EvidenceBundle.withRows (bundle : EvidenceBundle) (senders : List SenderObservation)
    (queues : List QueueObservation) : EvidenceBundle :=
  { bundle with senders := senders, queues := queues }

/-- Other rows that say what the rows of the bundle say. -/
structure SameEvidence (bundle : EvidenceBundle) (senders : List SenderObservation)
    (queues : List QueueObservation) : Prop where
  valid : bundle.structurallyValid
  other_valid : (bundle.withRows senders queues).structurallyValid
  counted : (countedRows (bundle.withRows senders queues)).Perm (countedRows bundle)
  kept : (firstByKey [] (countedRows (bundle.withRows senders queues))).Perm
    (firstByKey [] (countedRows bundle))
  worst : worstQueue queues = worstQueue bundle.queues

theorem offeredSum_perm {rows other : List SenderObservation} (h : rows.Perm other) :
    offeredSum rows = offeredSum other := by
  rw [← UInt64.toNat_inj, offeredSum_toNat, offeredSum_toNat]
  unfold exactOffer
  rw [(h.map _).sum_eq]

theorem saturatingSum_perm {xs ys : List UInt64} (h : xs.Perm ys) :
    saturatingSum xs = saturatingSum ys := by
  rw [← UInt64.toNat_inj, saturatingSum_toNat, saturatingSum_toNat, (h.map _).sum_eq]

theorem collisionOf_sender {bundle : EvidenceBundle} {id : SenderId} {collision : SenderCollision}
    (h : collisionOf bundle id = some collision) : collision.sender = id := by
  simp only [collisionOf] at h
  split_ifs at h
  rw [← Option.some.inj h]

namespace SameEvidence

variable {bundle : EvidenceBundle} {senders : List SenderObservation}
  {queues : List QueueObservation}

theorem collisionOf_eq (h : SameEvidence bundle senders queues) :
    collisionOf (bundle.withRows senders queues) = collisionOf bundle := by
  funext id
  have hsame : (collisionAggregate (bundle.withRows senders queues) id).Same
      (collisionAggregate bundle id) :=
    Foundation.foldl_perm CollisionAggregate.same_equivalence (fun _ _ row hs => hs.add row)
      CollisionAggregate.same_add_add (h.counted.filter _) {}
  simp only [collisionOf, hsame.kind, hsame.occurrences]

theorem detectCollisions_eq (h : SameEvidence bundle senders queues) :
    detectCollisions (bundle.withRows senders queues) = detectCollisions bundle := by
  unfold detectCollisions
  have hids := (h.counted.map fun sender => sender.identity.sender).dedup
  rw [h.collisionOf_eq]
  refine @Foundation.insertionSort_perm _ _ _ (fun c : SenderCollision => c.sender.value.toNat) _ _ _ _
    (fun a b => UInt64.le_iff_toNat_le) (hids.filterMap _) ?_
  rw [List.map_filterMap]
  refine List.Nodup.filterMap (fun a b n ha hb => ?_) (List.nodup_dedup _)
  obtain ⟨c, hc, rfl⟩ := Option.map_eq_some_iff.mp ha
  obtain ⟨d, hd, heq⟩ := Option.map_eq_some_iff.mp hb
  rw [← collisionOf_sender hc, ← collisionOf_sender hd]
  exact StrongId.toNat_inj.mp heq.symm

theorem arrivals_perm (h : SameEvidence bundle senders queues) :
    (arrivals (bundle.withRows senders queues)).Perm (arrivals bundle) :=
  (h.counted.map _).filter _

theorem bounds_eq (h : SameEvidence bundle senders queues) :
    arrivalBounds (bundle.withRows senders queues) = arrivalBounds bundle := by
  have hfirst := @Foundation.firstLargest_perm _ _ _ Timestamp.earliness _ _ h.arrivals_perm
    fun _ _ _ _ he => Timestamp.ext_toInt he
  have hlast := @Foundation.firstLargest_perm _ _ _ Timestamp.lateness _ _ h.arrivals_perm
    fun _ _ _ _ he => Timestamp.ext_toInt he
  rw [arrivalBounds_eq, arrivalBounds_eq, hfirst, hlast]

theorem metrics_eq (h : SameEvidence bundle senders queues) (policy : GovernorPolicy) :
    computeMetrics (bundle.withRows senders queues) policy = computeMetrics bundle policy := by
  have hqueues : worstQueue ((bundle.withRows senders queues).queues.take kMaxQueueObservations) =
      worstQueue (bundle.queues.take kMaxQueueObservations) := by
    rw [List.take_of_length_le h.other_valid.2.2.2.2.2.2,
      List.take_of_length_le h.valid.2.2.2.2.2.2]
    exact h.worst
  have hsaturated : (bundle.withRows senders queues).senders.length > kMaxSendersPerWindow ↔
      bundle.senders.length > kMaxSendersPerWindow :=
    iff_of_false (Nat.not_lt.mpr h.other_valid.2.2.2.2.2.1) (Nat.not_lt.mpr h.valid.2.2.2.2.2.1)
  have harrived : arrivals (bundle.withRows senders queues) = [] ↔ arrivals bundle = [] := by
    rw [← List.length_eq_zero_iff, h.arrivals_perm.length_eq, List.length_eq_zero_iff]
  have hprotected := h.counted.filter fun sender => isProtectedSender sender policy
  have hoffered := offeredSum_perm h.counted
  have hoffered' := offeredSum_perm hprotected
  have houtstanding := saturatingSum_perm (h.counted.map fun sender => sender.outstanding.count)
  have hflows := (((h.counted.map fun sender => sender.identity.flow).filter
    fun flow => flow.valid).dedup).length_eq
  simp only [computeMetrics, hqueues, hsaturated, harrived, hprotected.length_eq, hoffered,
    hoffered', houtstanding, hflows, ne_eq, h.counted.length_eq, h.bounds_eq, h.detectCollisions_eq]
  rfl

theorem synchronization_eq (h : SameEvidence bundle senders queues) (metrics : FanInMetrics)
    (policy : GovernorPolicy) :
    computeSynchronization (bundle.withRows senders queues) metrics policy =
      computeSynchronization bundle metrics policy := by
  have hrows : (synchronizedRows (bundle.withRows senders queues) metrics policy).Perm
      (synchronizedRows bundle metrics policy) := by
    rw [synchronizedRows_eq_countedRows h.other_valid, synchronizedRows_eq_countedRows h.valid]
    split_ifs
    · exact h.counted.filter _
    · exact List.Perm.refl _
  simp only [computeSynchronization, offeredSum_perm hrows, hrows.length_eq]

theorem contributions_eq (h : SameEvidence bundle senders queues) (policy : GovernorPolicy)
    (metrics : FanInMetrics) (synchronization : SynchronizationEvidence)
    (collisions : List SenderCollision) :
    rankContributions (bundle.withRows senders queues) policy metrics synchronization collisions =
      rankContributions bundle policy metrics synchronization collisions := by
  refine Foundation.insertionSort_perm not_ranksBefore_iff (h.kept.map _) ?_
  rw [List.map_map]
  have hkeys := nodup_identityKey_firstByKey (countedRows (bundle.withRows senders queues))
  refine List.Nodup.map_on (fun a ha b hb hab => ?_) hkeys.of_map
  refine List.inj_on_of_nodup_map hkeys ha hb ?_
  exact congrArg identityKey (SenderContribution.identity_eq_of_rankKey_eq hab)

theorem check_eq (h : SameEvidence bundle senders queues) (policy : GovernorPolicy)
    (last : PerClass UInt64) :
    checkAuthority (bundle.withRows senders queues) policy last =
      checkAuthority bundle policy last := by
  have hvalid : (bundle.withRows senders queues).structurallyValid ↔ bundle.structurallyValid :=
    iff_of_true h.other_valid h.valid
  unfold checkAuthority
  simp only [hvalid]
  rfl

theorem classification_eq (h : SameEvidence bundle senders queues) (policy : GovernorPolicy)
    (collisions : List SenderCollision) (context : ClassificationContext) :
    classify (bundle.withRows senders queues) policy collisions context =
      classify bundle policy collisions context := by
  simp only [classify, h.metrics_eq, h.synchronization_eq, h.contributions_eq, h.check_eq]

end SameEvidence

end IncastGovernor
