import Mathlib.Order.OrderDual
import IncastGovernor.Detect.Classify
import IncastGovernor.Foundation.Selection

/-! The synchronization of a window. The verdict compares the number of all counted senders with
the floor, and the spread and the share of those that recorded an arrival with the bound and the
share; three predicates say which of them arrived inside the bound. -/

namespace IncastGovernor

/-! ### The first and the last arrival -/

/-- The counted rows that recorded an arrival. -/
def arrivedRows (bundle : EvidenceBundle) : List SenderObservation :=
  (countedRows bundle).filter fun row => row.firstArrival.valid

theorem arrivals_eq_map (bundle : EvidenceBundle) :
    arrivals bundle = (arrivedRows bundle).map fun row => row.firstArrival := by
  unfold arrivals arrivedRows
  rw [List.filter_map]
  rfl

namespace Timestamp

/-- The instant as an integer, earlier ones first. -/
def earliness (t : Timestamp) : ℤᵒᵈ := OrderDual.toDual t.nanos.toInt

def lateness (t : Timestamp) : ℤ := t.nanos.toInt

theorem ext_toInt {s t : Timestamp} (h : s.nanos.toInt = t.nanos.toInt) : s = t := by
  cases s
  cases t
  rw [Int64.toInt_inj] at h
  exact congrArg Timestamp.mk h

theorem earlier_eq_keepLarger (kept t : Timestamp) :
    some (earlier kept t) = Foundation.keepLarger earliness (some kept) t := by
  simp only [earlier, Foundation.keepLarger, apply_ite some]
  exact if_congr Int64.lt_iff_toInt_lt rfl rfl

theorem later_eq_keepLarger (kept t : Timestamp) :
    some (later kept t) = Foundation.keepLarger lateness (some kept) t := by
  simp only [later, Foundation.keepLarger, apply_ite some]
  exact if_congr Int64.lt_iff_toInt_lt rfl rfl

end Timestamp

/-- The two bounds are the first largest entries for earliness and lateness. -/
theorem arrivalBounds_eq (bundle : EvidenceBundle) :
    arrivalBounds bundle =
      ((Foundation.firstLargest Timestamp.earliness (arrivals bundle)).getD {},
        (Foundation.firstLargest Timestamp.lateness (arrivals bundle)).getD {}) := by
  unfold arrivalBounds
  cases arrivals bundle with
  | nil => rfl
  | cons first rest =>
    rw [← Foundation.foldl_eq_firstLargest Timestamp.earlier_eq_keepLarger,
      ← Foundation.foldl_eq_firstLargest Timestamp.later_eq_keepLarger]
    rfl

section Bounds

variable {bundle : EvidenceBundle} {policy : GovernorPolicy} {row : SenderObservation}

theorem mem_arrivals (h : row ∈ arrivedRows bundle) : row.firstArrival ∈ arrivals bundle := by
  rw [arrivals_eq_map]
  exact List.mem_map_of_mem h

theorem arrivalBounds_leads (h : row ∈ arrivedRows bundle) :
    Foundation.Leads Timestamp.earliness (arrivals bundle) (arrivalBounds bundle).1 ∧
      Foundation.Leads Timestamp.lateness (arrivals bundle) (arrivalBounds bundle).2 := by
  have hmem := mem_arrivals h
  obtain ⟨first, hf, hfirst⟩ := @Foundation.exists_leads _ _ _ Timestamp.earliness _ _ hmem
  obtain ⟨last, hl, hlast⟩ := @Foundation.exists_leads _ _ _ Timestamp.lateness _ _ hmem
  rw [arrivalBounds_eq, hf, hl]
  exact ⟨hfirst, hlast⟩

theorem mem_arrivedRows_of_leads {t : Timestamp} {β : Type} [LinearOrder β] {key : Timestamp → β}
    (h : Foundation.Leads key (arrivals bundle) t) :
    ∃ row ∈ arrivedRows bundle, row.firstArrival = t := by
  have hmem := h.mem
  rwa [arrivals_eq_map, List.mem_map] at hmem

theorem earliestArrival_le (h : row ∈ arrivedRows bundle) :
    (computeMetrics bundle policy).earliestArrival.nanos.toInt ≤ row.firstArrival.nanos.toInt :=
  (arrivalBounds_leads h).1.le (mem_arrivals h)

theorem earliestArrival_valid_iff :
    (computeMetrics bundle policy).earliestArrival.valid ↔ arrivedRows bundle ≠ [] := by
  constructor
  · intro hv hnil
    have hnone : arrivals bundle = [] := by rw [arrivals_eq_map, hnil, List.map_nil]
    have hzero : (arrivalBounds bundle).1 = {} := by rw [arrivalBounds_eq, hnone]; rfl
    exact hv (congrArg Timestamp.nanos hzero)
  · intro hne
    obtain ⟨row, hrow⟩ := List.exists_mem_of_ne_nil _ hne
    obtain ⟨first, hfirst, heq⟩ := mem_arrivedRows_of_leads (arrivalBounds_leads hrow).1
    have hv := (List.mem_filter.mp hfirst).2
    rw [decide_eq_true_iff, heq] at hv
    exact hv

/-- The rows of a structurally valid bundle that are counted inside the bound are counted rows. -/
theorem synchronizedRows_eq_countedRows (hs : bundle.structurallyValid) (metrics : FanInMetrics) :
    synchronizedRows bundle metrics policy =
      if metrics.earliestArrival.valid then
        (countedRows bundle).filter fun row => row.firstArrival.valid ∧ row.firstArrival.nanos ≤
          metrics.earliestArrival.nanos + policy.synchronization.syncWindowBound.nanos
      else [] := by
  unfold synchronizedRows
  split_ifs
  · rw [countedRows_of_structurallyValid hs, List.filter_filter]
    refine List.filter_congr fun row _ => ?_
    simp only [Bool.decide_and, Bool.and_comm]
  · rfl

/-- They are those whose arrival is at most the end of the bound. -/
theorem synchronizedRows_eq_filter (hs : bundle.structurallyValid) :
    synchronizedRows bundle (computeMetrics bundle policy) policy =
      (arrivedRows bundle).filter fun row => row.firstArrival.nanos ≤
        (computeMetrics bundle policy).earliestArrival.nanos +
          policy.synchronization.syncWindowBound.nanos := by
  rw [synchronizedRows_eq_countedRows hs]
  split_ifs with hv
  · unfold arrivedRows
    rw [List.filter_filter]
    refine List.filter_congr fun row _ => ?_
    simp only [Bool.decide_and, Bool.and_comm]
  · rw [earliestArrival_valid_iff, not_not] at hv
    rw [hv]
    rfl

end Bounds

/-! ### What a synchronized verdict says about the arrivals -/

/-- No difference of two arrivals leaves the 64 bits it is computed in. -/
def ArrivalSpanFits (bundle : EvidenceBundle) : Prop :=
  ∀ row ∈ arrivedRows bundle, ∀ other ∈ arrivedRows bundle,
    row.firstArrival.nanos.toInt - other.firstArrival.nanos.toInt < 2 ^ 63

instance (bundle : EvidenceBundle) : Decidable (ArrivalSpanFits bundle) := by
  delta ArrivalSpanFits; infer_instance

/-- The rows whose arrival lies within the bound of the earliest one, that is of every other. -/
def nearRows (bundle : EvidenceBundle) (policy : GovernorPolicy) : List SenderObservation :=
  (arrivedRows bundle).filter fun row => ∀ other ∈ arrivedRows bundle,
    row.firstArrival.nanos.toInt - other.firstArrival.nanos.toInt ≤
      policy.synchronization.syncWindowBound.nanos.toInt

/-- Some rows are as many as the policy asks for and offer the share of the whole it asks for. -/
structure MeetsFloors (bundle : EvidenceBundle) (policy : GovernorPolicy)
    (rows : List SenderObservation) : Prop where
  population : policy.synchronization.minSynchronizedSenders.toNat ≤ rows.length
  share : policy.synchronization.minAggregateShareBp.toNat * exactOffer (countedRows bundle) ≤
    10000 * exactOffer rows

section Verdict

variable {bundle : EvidenceBundle} {policy : GovernorPolicy}

theorem arrivalSpread_toInt (hfit : ArrivalSpanFits bundle) {row : SenderObservation}
    (h : row ∈ arrivedRows bundle) :
    (computeMetrics bundle policy).arrivalSpread.nanos.toInt =
      (arrivalBounds bundle).2.nanos.toInt - (arrivalBounds bundle).1.nanos.toInt := by
  obtain ⟨hearliest, hlatest⟩ := arrivalBounds_leads h
  have hne : arrivals bundle ≠ [] := List.ne_nil_of_mem hearliest.mem
  have hle : (arrivalBounds bundle).1.nanos.toInt ≤ (arrivalBounds bundle).2.nanos.toInt :=
    hlatest.le hearliest.mem
  have hspread : (computeMetrics bundle policy).arrivalSpread =
      ⟨(arrivalBounds bundle).2.nanos - (arrivalBounds bundle).1.nanos⟩ :=
    if_pos ⟨hne, Int64.le_iff_toInt_le.mpr hle⟩
  obtain ⟨first, hfirst, hf⟩ := mem_arrivedRows_of_leads hearliest
  obtain ⟨last, hlast, hl⟩ := mem_arrivedRows_of_leads hlatest
  have hspan := hfit last hlast first hfirst
  rw [hf, hl] at hspan
  rw [hspread, Int64.toInt_sub, Int.bmod_eq_of_le (by omega) (by omega)]

/-- A spread inside the bound puts every arrival inside it. -/
theorem nearRows_eq_arrivedRows (hfit : ArrivalSpanFits bundle)
    (h : (computeMetrics bundle policy).arrivalSpread ≤ policy.synchronization.syncWindowBound) :
    nearRows bundle policy = arrivedRows bundle := by
  rw [nearRows, List.filter_eq_self]
  intro row hrow
  rw [decide_eq_true_iff]
  intro other hother
  obtain ⟨hearliest, hlatest⟩ := arrivalBounds_leads hrow
  have hle : (computeMetrics bundle policy).arrivalSpread.nanos.toInt ≤
      policy.synchronization.syncWindowBound.nanos.toInt := Int64.le_iff_toInt_le.mp h
  rw [arrivalSpread_toInt hfit hrow] at hle
  have hlast : row.firstArrival.nanos.toInt ≤ (arrivalBounds bundle).2.nanos.toInt :=
    hlatest.le (mem_arrivals hrow)
  have hfirst := @earliestArrival_le bundle policy _ hother
  change (arrivalBounds bundle).1.nanos.toInt ≤ _ at hfirst
  omega

theorem share_le_of_ratioBp_ge {numerator denominator : UInt64} {share : UInt32}
    (hfits : 10000 * numerator.toNat < 2 ^ 64 - 1)
    (h : (ratioBp numerator denominator).value ≥ share) :
    share.toNat * denominator.toNat ≤ 10000 * numerator.toNat := by
  rw [ge_iff_le, UInt32.le_iff_toNat_le, ratioBp_toNat] at h
  by_cases hzero : denominator.toNat = 0
  · rw [hzero, Nat.mul_zero]
    exact Nat.zero_le _
  · rw [if_neg hzero, if_neg (by omega)] at h
    have hle := (Nat.le_div_iff_mul_le (Nat.pos_of_ne_zero hzero)).mp (h.trans (min_le_left _ _))
    omega

/-- Below the cap the share that is compared is one that any rows offer which offer no less. -/
theorem share_of_shareSufficient {rows : List SenderObservation}
    (hrows : exactOffer (synchronizedRows bundle (computeMetrics bundle policy) policy) ≤
      exactOffer rows) (hfits : 10000 * exactOffer rows < 2 ^ 64 - 1)
    (h : (computeSynchronization bundle (computeMetrics bundle policy) policy).shareSufficient = true) :
    policy.synchronization.minAggregateShareBp.toNat * exactOffer (countedRows bundle) ≤
      10000 * exactOffer rows := by
  have hoffer := offeredSum_toNat (synchronizedRows bundle (computeMetrics bundle policy) policy)
  rw [min_eq_left (by omega)] at hoffer
  have hshare := share_le_of_ratioBp_ge (by omega) (of_decide_eq_true h)
  have haggregate : (computeMetrics bundle policy).aggregateOffered.bytesPerSecond.toNat =
      min (exactOffer (countedRows bundle)) (2 ^ 64 - 1) := offeredSum_toNat _
  rw [haggregate, hoffer] at hshare
  rcases le_total (exactOffer (countedRows bundle)) (2 ^ 64 - 1) with hle | hle
  · rw [min_eq_left hle] at hshare
    omega
  · rw [min_eq_right hle] at hshare
    have hzero : policy.synchronization.minAggregateShareBp.toNat = 0 := by
      by_contra hne
      have hone := Nat.le_mul_of_pos_left (2 ^ 64 - 1) (Nat.pos_of_ne_zero hne)
      omega
    rw [hzero, Nat.zero_mul]
    exact Nat.zero_le _

/-- The end of the bound, where it does not overflow. -/
theorem limit_toInt {metrics : FanInMetrics}
    (hlow : -2 ^ 63 ≤ metrics.earliestArrival.nanos.toInt +
      policy.synchronization.syncWindowBound.nanos.toInt)
    (hhigh : metrics.earliestArrival.nanos.toInt +
      policy.synchronization.syncWindowBound.nanos.toInt < 2 ^ 63) :
    (metrics.earliestArrival.nanos + policy.synchronization.syncWindowBound.nanos).toInt =
      metrics.earliestArrival.nanos.toInt + policy.synchronization.syncWindowBound.nanos.toInt := by
  rw [Int64.toInt_add, Int.bmod_eq_of_le (by omega) (by omega)]

/-- Arrivals whose span overflows begin before the zero instant, so the end of the bound does not
overflow, and the rows counted inside it are the near ones. -/
theorem synchronizedRows_eq_nearRows (hs : bundle.structurallyValid)
    (hpos : policy.synchronization.syncWindowBound.positive) (hfit : ¬ArrivalSpanFits bundle) :
    synchronizedRows bundle (computeMetrics bundle policy) policy = nearRows bundle policy := by
  have hbound : 0 < policy.synchronization.syncWindowBound.nanos.toInt :=
    Int64.lt_iff_toInt_lt.mp hpos
  have hboundHigh := policy.synchronization.syncWindowBound.nanos.toInt_lt
  have hearliest : (computeMetrics bundle policy).earliestArrival.nanos.toInt < 0 := by
    unfold ArrivalSpanFits at hfit
    push Not at hfit
    obtain ⟨late, hlate, early, hearly, hspan⟩ := hfit
    have hfirst := @earliestArrival_le bundle policy _ hearly
    have hhigh := late.firstArrival.nanos.toInt_lt
    omega
  have hlow := (computeMetrics bundle policy).earliestArrival.nanos.le_toInt
  rw [synchronizedRows_eq_filter hs, nearRows]
  refine List.filter_congr fun row hrow => decide_eq_decide.mpr ?_
  rw [Int64.le_iff_toInt_le, limit_toInt (by omega) (by omega)]
  constructor
  · intro hle other hother
    have hfirst := @earliestArrival_le bundle policy _ hother
    omega
  · intro hnear
    obtain ⟨first, hfirst, heq⟩ := mem_arrivedRows_of_leads (arrivalBounds_leads hrow).1
    have hle := hnear first hfirst
    rw [heq] at hle
    change _ - (computeMetrics bundle policy).earliestArrival.nanos.toInt ≤ _ at hle
    omega

/-- The rows the floors are a matter of: those that arrived, and where the span of their arrivals
overflows the near ones of them. -/
def floorRows (bundle : EvidenceBundle) (policy : GovernorPolicy) : List SenderObservation :=
  if ArrivalSpanFits bundle then arrivedRows bundle else nearRows bundle policy

/-- A synchronized verdict is carried by enough near senders exactly when enough senders recorded an
arrival and, where the share of those is too large to be computed, they carry it. -/
theorem synchronized_meetsFloors_iff (hs : bundle.structurallyValid)
    (hv : policy.validate = .ok ())
    (hsync : (computeSynchronization bundle (computeMetrics bundle policy) policy).synchronized =
      true) :
    MeetsFloors bundle policy (nearRows bundle policy) ↔
      policy.synchronization.minSynchronizedSenders.toNat ≤ (floorRows bundle policy).length ∧
        (10000 * exactOffer (floorRows bundle policy) < 2 ^ 64 - 1 ∨
          policy.synchronization.minAggregateShareBp.toNat * exactOffer (countedRows bundle) ≤
            10000 * exactOffer (floorRows bundle policy)) := by
  simp only [computeSynchronization, Bool.and_eq_true, decide_eq_true_iff] at hsync
  obtain ⟨⟨-, ⟨hspread, -, -⟩, -⟩, hshare⟩ := hsync
  obtain ⟨hnear, hrows⟩ : nearRows bundle policy = floorRows bundle policy ∧
      exactOffer (synchronizedRows bundle (computeMetrics bundle policy) policy) ≤
        exactOffer (floorRows bundle policy) := by
    unfold floorRows
    split_ifs with hfit
    · refine ⟨nearRows_eq_arrivedRows hfit hspread, ?_⟩
      rw [synchronizedRows_eq_filter hs]
      exact exactOffer_le_of_sublist List.filter_sublist
    · have hpos := GovernorPolicy.syncWindowBound_of_validate hv
      exact ⟨rfl, (congrArg exactOffer (synchronizedRows_eq_nearRows hs hpos hfit)).le⟩
  rw [hnear]
  constructor
  · exact fun h => ⟨h.population, Or.inr h.share⟩
  · rintro ⟨hpopulation, hfits | hexact⟩
    · exact ⟨hpopulation, share_of_shareSufficient hrows hfits (decide_eq_true hshare)⟩
    · exact ⟨hpopulation, hexact⟩

theorem synchronized_meetsFloors_sample :
    MeetsFloors (sampleBundle 1 1000000000 [sampleRow 1 1500, sampleRow 2 1500]) samplePolicy
      (nearRows (sampleBundle 1 1000000000 [sampleRow 1 1500, sampleRow 2 1500]) samplePolicy) :=
  (synchronized_meetsFloors_iff (by decide) (by decide +kernel) (by decide +kernel)).mpr
    (by decide +kernel)

/-- Two senders of which the smaller one recorded no arrival. -/
def loneArrivalBundle : EvidenceBundle :=
  sampleBundle 1 1000000000 [sampleRow 1 1500, { sampleRow 2 500 with firstArrival := {} }]

/-- One arrival is reported as a synchronized population of two. -/
theorem lone_arrival_synchronized :
    ¬∀ bundle policy, bundle.structurallyValid → policy.validate = .ok () →
      (computeSynchronization bundle (computeMetrics bundle policy) policy).synchronized = true →
        MeetsFloors bundle policy (nearRows bundle policy) := by
  intro h
  have hpopulation := (h loneArrivalBundle samplePolicy (by decide) (by decide +kernel)
    (by decide +kernel)).population
  have hbroken : ¬samplePolicy.synchronization.minSynchronizedSenders.toNat ≤
      (nearRows loneArrivalBundle samplePolicy).length := by decide +kernel
  exact hbroken hpopulation

end Verdict

/-! ### The three predicates -/

/-- No instant of the window test leaves the 64 bits it is computed in. -/
structure InstantsFit (bundle : EvidenceBundle) (policy : GovernorPolicy) : Prop where
  limit_low : -2 ^ 63 ≤ (computeMetrics bundle policy).earliestArrival.nanos.toInt +
    policy.synchronization.syncWindowBound.nanos.toInt
  limit_high : (computeMetrics bundle policy).earliestArrival.nanos.toInt +
    policy.synchronization.syncWindowBound.nanos.toInt < 2 ^ 63
  span : ArrivalSpanFits bundle

/-- The flag of the contribution of a row, the predicate on the row and the count of the row say the
same. -/
structure PredicatesAgree (bundle : EvidenceBundle) (policy : GovernorPolicy)
    (collisions : List SenderCollision) (row : SenderObservation) : Prop where
  flagged_iff : (contributionOf policy (computeMetrics bundle policy)
      (computeSynchronization bundle (computeMetrics bundle policy) policy) collisions
      row).synchronized = true ↔
    isSynchronizedSender row (computeMetrics bundle policy).earliestArrival
      (computeSynchronization bundle (computeMetrics bundle policy) policy)
  counted_iff : (contributionOf policy (computeMetrics bundle policy)
      (computeSynchronization bundle (computeMetrics bundle policy) policy) collisions
      row).synchronized = true ↔
    row ∈ synchronizedRows bundle (computeMetrics bundle policy) policy

section Predicates

variable {bundle : EvidenceBundle} {policy : GovernorPolicy} {collisions : List SenderCollision}
  {row : SenderObservation}

/-- Every arrival of a synchronized window lies inside the bound. -/
theorem offset_le_of_synchronized (hfit : ArrivalSpanFits bundle)
    (hsync : (computeSynchronization bundle (computeMetrics bundle policy) policy).synchronized = true)
    (h : row ∈ arrivedRows bundle) :
    row.firstArrival.nanos.toInt - (computeMetrics bundle policy).earliestArrival.nanos.toInt ≤
      policy.synchronization.syncWindowBound.nanos.toInt := by
  simp only [computeSynchronization, Bool.and_eq_true, decide_eq_true_iff] at hsync
  have hnear : row ∈ nearRows bundle policy := by
    rw [nearRows_eq_arrivedRows hfit hsync.1.2.1.1]
    exact h
  obtain ⟨first, hfirst, heq⟩ := mem_arrivedRows_of_leads (arrivalBounds_leads h).1
  have hle := of_decide_eq_true (List.mem_filter.mp hnear).2 first hfirst
  rw [heq] at hle
  exact hle

/-- In a synchronized window the count and the predicate hold of every row that arrived; the flag
takes a window that ends at the zero instant for one that was never opened. -/
theorem window_predicates (hs : bundle.structurallyValid) (hfit : InstantsFit bundle policy)
    (hsync : (computeSynchronization bundle (computeMetrics bundle policy) policy).synchronized = true)
    (h : row ∈ arrivedRows bundle) :
    ((contributionOf policy (computeMetrics bundle policy)
          (computeSynchronization bundle (computeMetrics bundle policy) policy) collisions
          row).synchronized = true ↔
        (computeMetrics bundle policy).earliestArrival.nanos.toInt +
          policy.synchronization.syncWindowBound.nanos.toInt ≠ 0) ∧
      row ∈ synchronizedRows bundle (computeMetrics bundle policy) policy ∧
        isSynchronizedSender row (computeMetrics bundle policy).earliestArrival
          (computeSynchronization bundle (computeMetrics bundle policy) policy) := by
  have hv : row.firstArrival.valid := of_decide_eq_true (List.mem_filter.mp h).2
  have hearliest : (computeMetrics bundle policy).earliestArrival.valid :=
    earliestArrival_valid_iff.mpr (List.ne_nil_of_mem h)
  have hfirst := @earliestArrival_le bundle policy row h
  have hoffset := offset_le_of_synchronized hfit.span hsync h
  have hlimit := limit_toInt hfit.limit_low hfit.limit_high
  have hle : row.firstArrival.nanos ≤ (computeMetrics bundle policy).earliestArrival.nanos +
      policy.synchronization.syncWindowBound.nanos := by
    rw [Int64.le_iff_toInt_le, hlimit]
    omega
  refine ⟨?_, ?_, hv, hearliest, ?_, ?_⟩
  · have hzero : (computeMetrics bundle policy).earliestArrival.nanos +
        policy.synchronization.syncWindowBound.nanos ≠ 0 ↔
          (computeMetrics bundle policy).earliestArrival.nanos.toInt +
            policy.synchronization.syncWindowBound.nanos.toInt ≠ 0 := by
      rw [← hlimit, ne_eq, ne_eq, ← Int64.toInt_inj]
      rfl
    rw [contributionOf_synchronized_iff, synchronizedLimit, if_pos hearliest]
    exact ⟨fun hc => hzero.mp hc.2.1,
      fun hne => ⟨hsync, hzero.mpr hne, hv, hle, Int64.le_iff_toInt_le.mpr hfirst⟩⟩
  · rw [synchronizedRows_eq_filter hs]
    exact List.mem_filter.mpr ⟨h, decide_eq_true hle⟩
  · exact fun hlt => absurd (Int64.lt_iff_toInt_lt.mp hlt) (not_lt.mpr hfirst)
  · have hbound := policy.synchronization.syncWindowBound.nanos.toInt_lt
    rw [Int64.le_iff_toInt_le, Int64.toInt_sub, Int.bmod_eq_of_le (by omega) (by omega)]
    exact hoffset

/-- The contribution of a row is among the ranked ones, and the three predicates agree on it except
where the window ends at the zero instant and the row arrived. -/
theorem synchronized_predicates_agree_iff (hs : bundle.structurallyValid)
    (hfit : InstantsFit bundle policy)
    (hsync : (computeSynchronization bundle (computeMetrics bundle policy) policy).synchronized = true)
    (hrow : row ∈ firstByKey [] (countedRows bundle)) :
    contributionOf policy (computeMetrics bundle policy)
          (computeSynchronization bundle (computeMetrics bundle policy) policy) collisions row ∈
        rankContributions bundle policy (computeMetrics bundle policy)
          (computeSynchronization bundle (computeMetrics bundle policy) policy) collisions ∧
      (PredicatesAgree bundle policy collisions row ↔
        ¬((computeMetrics bundle policy).earliestArrival.nanos.toInt +
            policy.synchronization.syncWindowBound.nanos.toInt = 0 ∧ row.firstArrival.valid)) := by
  refine ⟨?_, ?_⟩
  · rw [rankContributions, List.mem_insertionSort]
    exact List.mem_map_of_mem hrow
  by_cases hv : row.firstArrival.valid
  · have harrived : row ∈ arrivedRows bundle :=
      List.mem_filter.mpr ⟨(firstByKey_sublist _ _).subset hrow, decide_eq_true hv⟩
    have hflag := @window_predicates bundle policy collisions row hs hfit hsync harrived
    have hsplit : PredicatesAgree bundle policy collisions row ↔
        (contributionOf policy (computeMetrics bundle policy)
          (computeSynchronization bundle (computeMetrics bundle policy) policy) collisions
          row).synchronized = true :=
      ⟨fun h => h.counted_iff.mpr hflag.2.1, fun h => ⟨iff_of_true h hflag.2.2, iff_of_true h hflag.2.1⟩⟩
    rw [hsplit, hflag.1]
    simp only [hv, and_true]
  · have hcounted : row ∉ synchronizedRows bundle (computeMetrics bundle policy) policy := by
      rw [synchronizedRows_eq_filter hs, List.mem_filter, arrivedRows, List.mem_filter]
      exact fun h => hv (of_decide_eq_true h.1.2)
    have hflag : ¬(contributionOf policy (computeMetrics bundle policy)
        (computeSynchronization bundle (computeMetrics bundle policy) policy) collisions
        row).synchronized = true := fun h => hv (contributionOf_synchronized_iff.mp h).2.2.1
    refine iff_of_true ⟨iff_of_false hflag fun h => hv h.1, iff_of_false hflag hcounted⟩ ?_
    exact fun h => hv h.2

theorem synchronized_predicates_agree_sample :
    ∃ row ∈ firstByKey [] (countedRows
        (sampleBundle 1 1000000000 [sampleRow 1 1500, sampleRow 2 1500])),
      PredicatesAgree (sampleBundle 1 1000000000 [sampleRow 1 1500, sampleRow 2 1500]) samplePolicy
        [] row := by
  obtain ⟨row, hrow, -⟩ : ∃ row ∈ firstByKey [] (countedRows
      (sampleBundle 1 1000000000 [sampleRow 1 1500, sampleRow 2 1500])), True := by decide +kernel
  refine ⟨row, hrow, (synchronized_predicates_agree_iff (by decide) ?_ ?_ hrow).2.mpr fun h => ?_⟩
  · exact ⟨by decide +kernel, by decide +kernel, by decide +kernel⟩
  · decide +kernel
  · exact absurd h.1 (by decide +kernel)

/-- Two senders that arrive so long before the zero instant that the window ends on it. -/
def epochBundle : EvidenceBundle :=
  sampleBundle 1 1000000000
    [{ sampleRow 1 1500 with firstArrival := ⟨-50000⟩ },
      { sampleRow 2 1500 with firstArrival := ⟨-50000⟩ }]

/-- They are synchronized and counted, and no contribution is flagged. -/
theorem epoch_limit_unflagged :
    ¬∀ bundle policy collisions row, bundle.structurallyValid → InstantsFit bundle policy →
      (computeSynchronization bundle (computeMetrics bundle policy) policy).synchronized = true →
        row ∈ firstByKey [] (countedRows bundle) → PredicatesAgree bundle policy collisions row := by
  intro h
  obtain ⟨row, hrow, hpredicate, hflag⟩ : ∃ row ∈ firstByKey [] (countedRows epochBundle),
      isSynchronizedSender row (computeMetrics epochBundle samplePolicy).earliestArrival
          (computeSynchronization epochBundle (computeMetrics epochBundle samplePolicy)
            samplePolicy) ∧
        (contributionOf samplePolicy (computeMetrics epochBundle samplePolicy)
          (computeSynchronization epochBundle (computeMetrics epochBundle samplePolicy)
            samplePolicy) [] row).synchronized = false := by decide +kernel
  have hagree := h epochBundle samplePolicy [] row (by decide)
    ⟨by decide +kernel, by decide +kernel, by decide +kernel⟩ (by decide +kernel) hrow
  rw [hagree.flagged_iff.mpr hpredicate] at hflag
  cases hflag

end Predicates

end IncastGovernor
