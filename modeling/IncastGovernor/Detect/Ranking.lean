import Mathlib.Data.List.Find
import Mathlib.Data.Prod.Lex
import IncastGovernor.Detect.Classify
import IncastGovernor.Foundation.FirstOccurrence
import IncastGovernor.Foundation.Rearrangement

/-! The ranked contributions of a window. Rows are collapsed by a mixed key and sorted by rate and
identity; a contribution is mitigable when it is synchronized, unprotected and uncollided. -/

namespace IncastGovernor

/-! ### Collapsing -/

theorem firstByKey_eq_firstBy (seen : List UInt64) (rows : List SenderObservation) :
    firstByKey seen rows = Foundation.firstBy (fun row => identityKey row.identity) seen rows := by
  induction rows generalizing seen with
  | nil => rfl
  | cons row rest ih =>
    unfold firstByKey Foundation.firstBy
    split_ifs with h
    · exact ih seen
    · rw [ih]

theorem nodup_identityKey_firstByKey (rows : List SenderObservation) :
    ((firstByKey [] rows).map fun row => identityKey row.identity).Nodup := by
  rw [firstByKey_eq_firstBy]
  exact Foundation.nodup_map_firstBy

/-- The key tells the identities of the bundle apart. -/
def KeysSeparate (bundle : EvidenceBundle) : Prop :=
  ∀ row ∈ bundle.senders, ∀ other ∈ bundle.senders, row.identity.valid → other.identity.valid →
    identityKey row.identity = identityKey other.identity → row.identity = other.identity

/-! ### The order of the ranking -/

/-- Rate descending, then incarnation, flow and sender. -/
def rankKey (c : SenderContribution) : ℕᵒᵈ ×ₗ ℕ ×ₗ ℕ ×ₗ ℕ :=
  toLex (OrderDual.toDual c.offeredRate.bytesPerSecond.toNat,
    toLex (c.identity.incarnation.value.toNat,
      toLex (c.identity.flow.value.toNat, c.identity.sender.value.toNat)))

theorem Rate.toNat_inj {r s : Rate} :
    r.bytesPerSecond.toNat = s.bytesPerSecond.toNat ↔ r = s := by
  cases r
  cases s
  simp [UInt64.toNat_inj]

theorem BootIncarnation.toNat_inj {b c : BootIncarnation} :
    b.value.toNat = c.value.toNat ↔ b = c := by
  cases b
  cases c
  simp [UInt64.toNat_inj]

theorem StrongId.toNat_inj {tag : IdTag} {i j : StrongId tag} :
    i.value.toNat = j.value.toNat ↔ i = j := by
  cases i
  cases j
  simp [UInt64.toNat_inj]

theorem BootIncarnation.lt_iff_toNat_lt {b c : BootIncarnation} :
    b < c ↔ b.value.toNat < c.value.toNat := UInt64.lt_iff_toNat_lt

theorem StrongId.lt_iff_toNat_lt {tag : IdTag} {i j : StrongId tag} :
    i < j ↔ i.value.toNat < j.value.toNat := UInt64.lt_iff_toNat_lt

namespace SenderContribution

variable {a b : SenderContribution}

theorem ranksBefore_iff : a.ranksBefore b ↔ rankKey a < rankKey b := by
  unfold rankKey ranksBefore
  simp only [Prod.Lex.toLex_lt_toLex, OrderDual.toDual_lt_toDual, OrderDual.toDual_inj, ne_eq,
    gt_iff_lt, UInt64.lt_iff_toNat_lt, BootIncarnation.lt_iff_toNat_lt, StrongId.lt_iff_toNat_lt,
    ← Rate.toNat_inj, ← BootIncarnation.toNat_inj, ← StrongId.toNat_inj]
  split_ifs <;> omega

/-- The key of the ranking holds the identity. -/
theorem identity_eq_of_rankKey_eq (h : rankKey a = rankKey b) : a.identity = b.identity := by
  unfold rankKey at h
  simp only [toLex_inj, Prod.mk.injEq, BootIncarnation.toNat_inj, StrongId.toNat_inj] at h
  obtain ⟨-, hincarnation, hflow, hsender⟩ := h
  cases ha : a.identity
  cases hb : b.identity
  simp_all

end SenderContribution

section Ranked

variable {bundle : EvidenceBundle} {policy : GovernorPolicy} {metrics : FanInMetrics}
  {synchronization : SynchronizationEvidence} {collisions : List SenderCollision}

theorem rankContributions_perm :
    (rankContributions bundle policy metrics synchronization collisions).Perm
      ((firstByKey [] (countedRows bundle)).map
        (contributionOf policy metrics synchronization collisions)) :=
  List.perm_insertionSort _ _

theorem not_ranksBefore_iff (a b : SenderContribution) :
    ¬b.ranksBefore a ↔ rankKey a ≤ rankKey b := by
  rw [SenderContribution.ranksBefore_iff, not_lt]

theorem rankContributions_pairwise :
    (rankContributions bundle policy metrics synchronization collisions).Pairwise
      fun a b => rankKey a ≤ rankKey b :=
  Foundation.pairwise_insertionSort_key not_ranksBefore_iff _

/-- One entry for each valid identity of the rows, made of the first row that has it, in the order
of the ranking. -/
structure RanksEachOnce (bundle : EvidenceBundle)
    (entry : SenderObservation → SenderContribution) (ranked : List SenderContribution) : Prop where
  nodup : (ranked.map fun c => c.identity).Nodup
  mem_iff : ∀ identity : SenderIdentity, identity ∈ ranked.map (fun c => c.identity) ↔
    identity.valid ∧ ∃ row ∈ bundle.senders, row.identity = identity
  first : ∀ c ∈ ranked, ∃ row,
    bundle.senders.find? (fun row => row.identity = c.identity) = some row ∧ c = entry row
  sorted : ranked.Pairwise SenderContribution.ranksBefore

theorem mem_firstByKey_iff {row : SenderObservation} :
    row ∈ firstByKey [] (countedRows bundle) ↔
      (countedRows bundle).find? (fun other => identityKey other.identity = identityKey row.identity) =
        some row := by
  rw [firstByKey_eq_firstBy, Foundation.mem_firstBy_iff]
  simp

/-- Under a separating key the first row of a key is the first row of its identity. -/
theorem find?_identity_of_mem_firstByKey (hs : bundle.structurallyValid)
    (hk : KeysSeparate bundle) {row : SenderObservation}
    (h : row ∈ firstByKey [] (countedRows bundle)) :
    bundle.senders.find? (fun other => other.identity = row.identity) = some row := by
  obtain ⟨hrow, hvalid⟩ := (mem_countedRows hs).mp ((firstByKey_sublist _ _).subset h)
  rw [mem_firstByKey_iff, countedRows_of_structurallyValid hs, List.find?_filter] at h
  rw [← h]
  refine List.find?_congr fun other ho => ?_
  simp only [decide_eq_decide, decide_eq_true_iff]
  constructor
  · intro heq
    rw [heq]
    exact ⟨hvalid, rfl⟩
  · rintro ⟨hv, hkey⟩
    exact hk other ho row hrow hv hvalid hkey

theorem keysSeparate_of_mem_iff
    (h : ∀ identity : SenderIdentity,
      identity ∈ (rankContributions bundle policy metrics synchronization collisions).map
          (fun c => c.identity) ↔
        identity.valid ∧ ∃ row ∈ bundle.senders, row.identity = identity) :
    KeysSeparate bundle := by
  have hentry : ∀ row ∈ bundle.senders, row.identity.valid →
      ∃ first ∈ firstByKey [] (countedRows bundle), first.identity = row.identity := by
    intro row hrow hv
    obtain ⟨c, hc, hci⟩ := List.mem_map.mp ((h row.identity).mpr ⟨hv, row, hrow, rfl⟩)
    obtain ⟨first, hfirst, rfl⟩ := List.mem_map.mp (rankContributions_perm.mem_iff.mp hc)
    exact ⟨first, hfirst, hci⟩
  intro row hrow other hother hv hov hkey
  obtain ⟨first, hfirst, hfi⟩ := hentry row hrow hv
  obtain ⟨second, hsecond, hsi⟩ := hentry other hother hov
  have heq : first = second :=
    List.inj_on_of_nodup_map (nodup_identityKey_firstByKey _) hfirst hsecond (by
      rw [hfi, hsi]
      exact hkey)
  rw [← hfi, ← hsi, heq]

/-- Every valid identity of a structurally valid bundle is ranked once, in order, exactly when the
mixed key tells the valid identities of its rows apart. -/
theorem rankContributions_eachOnce_iff (hs : bundle.structurallyValid) :
    RanksEachOnce bundle (contributionOf policy metrics synchronization collisions)
        (rankContributions bundle policy metrics synchronization collisions) ↔
      KeysSeparate bundle := by
  refine ⟨fun h => keysSeparate_of_mem_iff h.mem_iff, fun hk => ?_⟩
  have hperm := @rankContributions_perm bundle policy metrics synchronization collisions
  have hidentities : ((rankContributions bundle policy metrics synchronization collisions).map
      fun c => c.identity).Perm
        ((firstByKey [] (countedRows bundle)).map fun row => row.identity) := by
    have h := hperm.map fun c => c.identity
    rwa [List.map_map] at h
  have hnodup : ((rankContributions bundle policy metrics synchronization collisions).map
      fun c => c.identity).Nodup := by
    rw [hidentities.nodup_iff]
    refine List.Nodup.of_map identityKey ?_
    rw [List.map_map]
    exact nodup_identityKey_firstByKey _
  refine ⟨hnodup, fun identity => ?_, fun c hc => ?_, ?_⟩
  · rw [hidentities.mem_iff, List.mem_map]
    constructor
    · rintro ⟨row, hrow, rfl⟩
      obtain ⟨hmem, hv⟩ := (mem_countedRows hs).mp ((firstByKey_sublist _ _).subset hrow)
      exact ⟨hv, row, hmem, rfl⟩
    · rintro ⟨hv, row, hrow, rfl⟩
      have hcounted := (mem_countedRows hs).mpr ⟨hrow, hv⟩
      obtain ⟨first, hfirst, hkey⟩ := @Foundation.exists_mem_firstBy _ _ _
        (fun row : SenderObservation => identityKey row.identity) _ _ hcounted
      rw [← firstByKey_eq_firstBy] at hfirst
      obtain ⟨hmem, hfv⟩ := (mem_countedRows hs).mp ((firstByKey_sublist _ _).subset hfirst)
      exact ⟨first, hfirst, hk first hmem row hrow hfv hv hkey⟩
  · obtain ⟨row, hrow, rfl⟩ := List.mem_map.mp (hperm.mem_iff.mp hc)
    exact ⟨row, find?_identity_of_mem_firstByKey hs hk hrow, rfl⟩
  · have hne : (rankContributions bundle policy metrics synchronization collisions).Pairwise
        fun a b => a.identity ≠ b.identity := List.pairwise_map.mp hnodup
    refine (rankContributions_pairwise.and hne).imp fun {a b} h => ?_
    rw [SenderContribution.ranksBefore_iff]
    exact lt_of_le_of_ne h.1 fun heq => h.2 (SenderContribution.identity_eq_of_rankKey_eq heq)

/-- Two senders of one rate that are ranked apart. -/
theorem rankContributions_eachOnce_sample :
    RanksEachOnce (sampleBundle 1 1000000000 [sampleRow 1 400, sampleRow 2 400])
      (contributionOf samplePolicy {} {} [])
      (rankContributions (sampleBundle 1 1000000000 [sampleRow 1 400, sampleRow 2 400]) samplePolicy
        {} {} []) := by
  refine (rankContributions_eachOnce_iff (by decide)).mpr ?_
  unfold KeysSeparate
  decide +kernel

/-- Two boots of different senders under one key. -/
def collapsedBundle : EvidenceBundle :=
  let first : SenderIdentity := { sender := ⟨1⟩, incarnation := ⟨1⟩ }
  let second : SenderIdentity :=
    { sender := ⟨1 ^^^ 0x9E3779B97F4A7C15 ^^^ (2 * 0x9E3779B97F4A7C15)⟩, incarnation := ⟨2⟩ }
  sampleBundle 1 1000000000
    [{ sampleRow 1 400 with identity := first }, { sampleRow 2 400 with identity := second }]

/-- The second of them is lost. -/
theorem key_collision_drops_sender :
    ¬∀ bundle policy metrics synchronization collisions, bundle.structurallyValid →
      RanksEachOnce bundle (contributionOf policy metrics synchronization collisions)
        (rankContributions bundle policy metrics synchronization collisions) := by
  intro h
  have hk := keysSeparate_of_mem_iff
    (h collapsedBundle samplePolicy {} {} [] (by decide)).mem_iff
  have hbroken : ¬KeysSeparate collapsedBundle := by
    unfold KeysSeparate
    decide +kernel
  exact hbroken hk

end Ranked

/-! ### Mitigable contributions -/

/-- The rows of the bundle that share a sender with a row say the same about it. -/
def Unambiguous (bundle : EvidenceBundle) (row : SenderObservation) : Prop :=
  ∀ other ∈ bundle.senders, other.identity.sender = row.identity.sender →
    other.identity.incarnation.valid →
      other.identity.incarnation = row.identity.incarnation ∧ other.service = row.service ∧
        other.protectedObligation = row.protectedObligation

/-- An arrival at most the synchronization bound behind the earliest one. The instants wrap as the
machine's; where the end of the bound does not underflow they are those of the integers. -/
structure WithinBound (earliest arrival : Timestamp) (bound : Duration) : Prop where
  earliest_valid : earliest.valid
  arrival_valid : arrival.valid
  earliest_le : earliest.nanos.toInt ≤ arrival.nanos.toInt
  le_limit : arrival.nanos ≤ earliest.nanos + bound.nanos
  le_bound : -2 ^ 63 ≤ earliest.nanos.toInt + bound.nanos.toInt →
    arrival.nanos.toInt - earliest.nanos.toInt ≤ bound.nanos.toInt

theorem serviceStrength_injective {a b : ServiceClass} (h : serviceStrength a = serviceStrength b) :
    a = b := by
  cases a <;> cases b <;> first | rfl | cases h

/-- A sum of instants that does not underflow, above another at least the first summand, did not
wrap. -/
theorem Int64.toInt_add_of_le {a b c : Int64} (hlow : -2 ^ 63 ≤ a.toInt + b.toInt)
    (ha : a.toInt ≤ c.toInt) (hc : c ≤ a + b) : (a + b).toInt = a.toInt + b.toInt := by
  have hal := a.toInt_le
  have hbl := b.toInt_lt
  rw [Int64.le_iff_toInt_le, Int64.toInt_add] at hc
  rw [Int64.toInt_add]
  rw [Int.bmod_def] at hc ⊢
  split_ifs at hc ⊢ <;> omega

theorem withinBound_of_synchronized {policy : GovernorPolicy} {metrics : FanInMetrics}
    {synchronization : SynchronizationEvidence} {collisions : List SenderCollision}
    {row : SenderObservation}
    (h : (contributionOf policy metrics synchronization collisions row).synchronized = true) :
    WithinBound metrics.earliestArrival row.firstArrival synchronization.syncWindowBound := by
  obtain ⟨-, hlimit, harrival, hle, hearliest⟩ := contributionOf_synchronized_iff.mp h
  have hvalid : metrics.earliestArrival.valid := by
    by_contra hv
    exact hlimit (if_neg hv)
  rw [synchronizedLimit, if_pos hvalid] at hle
  rw [Int64.le_iff_toInt_le] at hearliest
  refine ⟨hvalid, harrival, hearliest, hle, fun hlow => ?_⟩
  have hsum := Int64.toInt_add_of_le hlow hearliest hle
  have hle' := Int64.le_iff_toInt_le.mp hle
  omega

theorem unambiguous_of_not_collided {bundle : EvidenceBundle} {row : SenderObservation}
    (hs : bundle.structurallyValid) (hrow : row ∈ countedRows bundle)
    (hc : row.identity.sender ∉ (detectCollisions bundle).map fun c => c.sender) :
    Unambiguous bundle row := by
  intro other hother hsender hincarnation
  obtain ⟨-, hvalid⟩ := (mem_countedRows hs).mp hrow
  have hcounted : other ∈ countedRows bundle :=
    (mem_countedRows hs).mpr ⟨hother, by rw [hsender]; exact hvalid.1, hincarnation⟩
  have hk : (collisionAggregate bundle row.identity.sender).kind = .none := by
    by_contra hne
    exact hc (mem_detectCollisions.mpr ⟨⟨row, hrow, rfl⟩, hne⟩)
  have hcovers : (collisionAggregate bundle row.identity.sender).Covers other := by
    rw [← hsender]
    exact collisionAggregate_covers hcounted
  obtain ⟨hboot, hstrength, hflag⟩ :=
    CollisionAggregate.agree_of_kind_none hk hcovers (collisionAggregate_covers hrow)
  exact ⟨hboot, serviceStrength_injective hstrength, hflag⟩

/-- A mitigable contribution comes from a row that nothing in the bundle contradicts, that is not
protected, and that arrived with its synchronized population. -/
theorem classify_mitigable {bundle : EvidenceBundle} {policy : GovernorPolicy}
    {context : ClassificationContext} {c : SenderContribution} (hs : bundle.structurallyValid)
    (hc : c ∈ (classify bundle policy (detectCollisions bundle) context).contributions)
    (hm : c.mitigable = true) :
    (classify bundle policy (detectCollisions bundle) context).synchronization.synchronized = true ∧
      ∃ row ∈ bundle.senders,
        c = contributionOf policy
            (classify bundle policy (detectCollisions bundle) context).metrics
            (classify bundle policy (detectCollisions bundle) context).synchronization
            (detectCollisions bundle) row ∧
        c.identity = row.identity ∧ c.service = row.service ∧ c.offeredRate = row.offeredRate ∧
          Unambiguous bundle row ∧ ¬isProtectedSender row policy ∧
          WithinBound (classify bundle policy (detectCollisions bundle) context).metrics.earliestArrival
            row.firstArrival policy.synchronization.syncWindowBound := by
  have hgranted : AuthorityGranted bundle policy noSequences := by
    rw [← checkAuthority_reason_iff]
    by_contra hr
    simp [classify, hr] at hc
  rw [classify_contributions hgranted] at hc
  obtain ⟨row, hrow, rfl⟩ := exists_row_of_mem_rankContributions hc
  obtain ⟨hsync, hprotected, hcollided⟩ := contributionOf_mitigable hm
  have hflag : (contributionOf policy
      (classify bundle policy (detectCollisions bundle) context).metrics
      (classify bundle policy (detectCollisions bundle) context).synchronization
      (detectCollisions bundle) row).synchronized = true := by
    simp only [contributionOf, Bool.and_eq_true] at hm ⊢
    exact hm.1.1
  refine ⟨hsync, row, ((mem_countedRows hs).mp hrow).1, rfl, rfl, rfl, rfl,
    unambiguous_of_not_collided hs hrow hcollided, hprotected, ?_⟩
  have h := withinBound_of_synchronized hflag
  rwa [classify_synchronization] at h

/-- Two senders that offer three times the service rate. -/
def overloadedBundle : EvidenceBundle :=
  sampleBundle 1 1000000000 [sampleRow 1 1500, sampleRow 2 1500]

theorem classify_mitigable_overloaded :
    ∃ row ∈ overloadedBundle.senders,
      Unambiguous overloadedBundle row ∧ ¬isProtectedSender row samplePolicy ∧
        WithinBound ⟨10⟩ row.firstArrival samplePolicy.synchronization.syncWindowBound := by
  obtain ⟨c, hc, hm⟩ : ∃ c ∈ (classify overloadedBundle samplePolicy
      (detectCollisions overloadedBundle) {}).contributions, c.mitigable = true := by decide +kernel
  have hearliest : (classify overloadedBundle samplePolicy (detectCollisions overloadedBundle)
      {}).metrics.earliestArrival = ⟨10⟩ := by decide +kernel
  obtain ⟨-, row, hrow, -, -, -, -, hu, hp, hw⟩ := @classify_mitigable overloadedBundle samplePolicy {} _
    (by decide) hc hm
  rw [hearliest] at hw
  exact ⟨row, hrow, hu, hp, hw⟩

end IncastGovernor
