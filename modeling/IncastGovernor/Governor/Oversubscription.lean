import IncastGovernor.Detect.Queues
import IncastGovernor.Governor.Onset
import IncastGovernor.Mitigate.Shape

/-! Mitigation against oversubscription. The service rate reaches the magnitude of an intent in two
ways: through the oversubscription that picks the kind, and through the target the offer is brought
down to. A smaller rate raises the first and lowers the second, and the share of an action follows
the requirement. -/

namespace IncastGovernor

/-- The bundle with another service rate in its capacity evidence. -/
def EvidenceBundle.withServiceRate (bundle : EvidenceBundle) (rate : Rate) : EvidenceBundle :=
  { bundle with capacity := { bundle.capacity with serviceRate := rate } }

/-- A contribution without its shares, the part of it that reads the service rate. -/
def SenderContribution.unshared (c : SenderContribution) : SenderContribution :=
  { c with offeredShareBp := {}, aggregateShareBp := {} }

/-- Two classifications of one population, the second one against a smaller service rate. -/
structure Classification.Tightens (loose tight : Classification) : Prop where
  saturated : loose.metrics.populationSaturated = tight.metrics.populationSaturated
  aggregate : loose.metrics.aggregateOffered = tight.metrics.aggregateOffered
  contributions : loose.contributions.map SenderContribution.unshared =
    tight.contributions.map SenderContribution.unshared
  rate_le : tight.metrics.serviceRate.bytesPerSecond ≤ loose.metrics.serviceRate.bytesPerSecond
  active : loose.kind = .activeIncast → tight.kind = .activeIncast

/-! ### The target -/

section Target

variable {policy : GovernorPolicy} {classification loose tight : Classification}

theorem reductionTarget_le_service :
    (reductionTarget policy classification).toNat ≤
      classification.metrics.serviceRate.bytesPerSecond.toNat := by
  unfold reductionTarget
  simp only
  split_ifs with h
  · exact (UInt64.lt_iff_toNat_lt.mp h.2.2).le
  · exact Nat.le_refl _

/-- A share of at least one half leaves something of every service rate but the smallest, so the
target of an active incast is the share itself from two bytes per second on. -/
theorem reductionTarget_of_active (hhalf : 5000 ≤ policy.recovery.relaxOversubscriptionBp.toNat)
    (hwhole : policy.recovery.relaxOversubscriptionBp.toNat ≤ 10000)
    (hk : classification.kind = .activeIncast) :
    (reductionTarget policy classification).toNat =
      max (min classification.metrics.serviceRate.bytesPerSecond.toNat 1)
        (shareOf classification.metrics.serviceRate.bytesPerSecond.toNat
          policy.recovery.relaxOversubscriptionBp.toNat) := by
  have hle := @shareOf_le classification.metrics.serviceRate.bytesPerSecond.toNat _ hwhole
  unfold reductionTarget
  simp only [hk, true_and]
  split_ifs with h
  · rw [ne_eq, applyBp_eq_zero_iff] at h
    rw [applyBp_toNat]
    have hone : 1 ≤ shareOf classification.metrics.serviceRate.bytesPerSecond.toNat
        policy.recovery.relaxOversubscriptionBp.toNat := by
      unfold shareOf
      omega
    exact (max_eq_right ((min_le_right _ _).trans hone)).symm
  · rw [ne_eq, ← UInt64.toNat_inj, UInt64.lt_iff_toNat_lt, applyBp_toNat, UInt64.toNat_zero] at h
    by_cases hzero : shareOf classification.metrics.serviceRate.bytesPerSecond.toNat
        policy.recovery.relaxOversubscriptionBp.toNat = 0
    · have hone : classification.metrics.serviceRate.bytesPerSecond.toNat ≤ 1 := by
        by_contra htwo
        have hproduct := Nat.mul_le_mul (Nat.not_le.mp htwo) hhalf
        unfold shareOf at hzero
        omega
      omega
    · omega

/-- A tighter window is brought down to no more. -/
theorem Classification.Tightens.target_le (h : loose.Tightens tight)
    (hhalf : 5000 ≤ policy.recovery.relaxOversubscriptionBp.toNat)
    (hwhole : policy.recovery.relaxOversubscriptionBp.toNat ≤ 10000) :
    (reductionTarget policy tight).toNat ≤ (reductionTarget policy loose).toNat := by
  have hrate := UInt64.le_iff_toNat_le.mp h.rate_le
  by_cases hk : loose.kind = .activeIncast
  · rw [reductionTarget_of_active hhalf hwhole hk,
      reductionTarget_of_active hhalf hwhole (h.active hk)]
    exact max_le_max (min_le_min_right _ hrate) (shareOf_mono_offer _ hrate)
  · have hservice : (reductionTarget policy loose).toNat =
        loose.metrics.serviceRate.bytesPerSecond.toNat := by
      simp only [reductionTarget, hk, false_and, if_false]
    rw [hservice]
    exact reductionTarget_le_service.trans hrate

theorem Classification.Tightens.required_le (h : loose.Tightens tight)
    (hhalf : 5000 ≤ policy.recovery.relaxOversubscriptionBp.toNat)
    (hwhole : policy.recovery.relaxOversubscriptionBp.toNat ≤ 10000) :
    (requiredReduction policy loose).toNat ≤ (requiredReduction policy tight).toNat := by
  have htarget := h.target_le hhalf hwhole
  rw [requiredReduction_toNat, requiredReduction_toNat, h.aggregate]
  omega

end Target

/-! ### The share -/

section Share

variable {policy : GovernorPolicy} {loose tight : Classification} {looser tighter : SizedAction}

theorem Classification.Tightens.allowed_iff (h : loose.Tightens tight) :
    senderScopeAllowed policy loose ↔ senderScopeAllowed policy tight := by
  unfold senderScopeAllowed
  rw [h.saturated]

/-- What a selection offers is not a matter of shares. -/
theorem selected_rates (contributions : List SenderContribution) (count : ℕ) :
    ((contributions.filter fun c => c.mitigable).take count).map
        (fun c => c.offeredRate.bytesPerSecond) =
      (((contributions.map SenderContribution.unshared).filter fun c => c.mitigable).take count).map
        fun c => c.offeredRate.bytesPerSecond := by
  rw [List.filter_map, ← List.map_take, List.map_map]
  rfl

theorem Classification.Tightens.mitigableOffer_eq (h : loose.Tightens tight) :
    mitigableOffer (selectedContributions policy loose) =
      mitigableOffer (selectedContributions policy tight) := by
  unfold mitigableOffer selectedContributions
  by_cases ha : senderScopeAllowed policy loose
  · rw [if_pos ha, if_pos (h.allowed_iff.mp ha), selected_rates, h.contributions, ← selected_rates]
  · rw [if_neg ha, if_neg (mt h.allowed_iff.mpr ha)]

theorem Classification.Tightens.senderScoped_iff (h : loose.Tightens tight) :
    senderScoped policy loose ↔ senderScoped policy tight := by
  unfold senderScoped
  rw [h.allowed_iff, h.mitigableOffer_eq]

theorem senderReductionBp_mono (bounds : MitigationBounds) {required more offer : UInt64}
    (ho : 0 < offer.toNat) (h : required.toNat ≤ more.toNat) :
    senderReductionBp bounds required offer ≤ senderReductionBp bounds more offer := by
  rw [UInt32.le_iff_toNat_le, senderReductionBp_toNat _ _ ho, senderReductionBp_toNat _ _ ho]
  have hceil : cappedScale required.toNat ⌈/⌉ offer.toNat ≤
      cappedScale more.toNat ⌈/⌉ offer.toNat :=
    (gc_smul_ceilDiv ho).monotone_l (cappedScale_mono h)
  exact max_le_max_left _ (min_le_min_right _ hceil)

theorem admissionReductionBp_mono (bounds : MitigationBounds) {required more aggregate : UInt64}
    (ha : 0 < aggregate.toNat) (h : required.toNat ≤ more.toNat) :
    admissionReductionBp bounds required aggregate ≤ admissionReductionBp bounds more aggregate := by
  rw [UInt32.le_iff_toNat_le, admissionReductionBp_toNat _ _ ha, admissionReductionBp_toNat _ _ ha]
  exact max_le_max_left _ (min_le_min_right _ (Nat.div_le_div_right (cappedScale_mono h)))

/-- A tighter window is given no smaller share. A window whose offer is within its target only gets
headroom, and no share at all. -/
theorem Classification.Tightens.sizeAction_le (h : loose.Tightens tight)
    (hreq : (requiredReduction policy loose).toNat ≤ (requiredReduction policy tight).toNat)
    (hl : sizeAction policy loose = some looser) (ht : sizeAction policy tight = some tighter) :
    looser.reductionBp ≤ tighter.reductionBp ∧ looser.admissionBp ≤ tighter.admissionBp := by
  by_cases hnone : requiredReduction policy loose = 0
  · rw [eq_structuralAction hnone hl]
    exact ⟨UInt32.zero_le, UInt32.zero_le⟩
  have hmore : requiredReduction policy tight ≠ 0 := fun hz => hnone
    (UInt64.toNat_inj.mp (Nat.le_zero.mp (by rwa [hz, UInt64.toNat_zero] at hreq)))
  by_cases hs : senderScoped policy loose
  · rw [sizeAction_sender hnone hs] at hl
    rw [sizeAction_sender hmore (h.senderScoped_iff.mp hs)] at ht
    rw [← Option.some.inj hl, ← Option.some.inj ht]
    simp only [senderAction]
    rw [← h.mitigableOffer_eq]
    exact ⟨senderReductionBp_mono _ (mitigableOffer_pos hs) hreq, UInt32.le_refl _⟩
  · rw [sizeAction_destination hnone hs] at hl
    rw [sizeAction_destination hmore (mt h.senderScoped_iff.mpr hs)] at ht
    rw [← Option.some.inj hl, ← Option.some.inj ht]
    simp only [admissionAction]
    rw [← h.aggregate]
    exact ⟨UInt32.le_refl _, admissionReductionBp_mono _ (aggregate_pos hnone) hreq⟩

/-- Every action is sized within the bounds. -/
theorem sizeAction_within {classification : Classification} {action : SizedAction}
    (hb : GovernorPolicy.BoundsValid policy.bounds)
    (hs : sizeAction policy classification = some action) :
    action.reductionBp ≤ policy.bounds.maxReductionBp ∧
      action.admissionBp ≤ policy.bounds.maxAdmissionReductionBp := by
  by_cases hreq : requiredReduction policy classification = 0
  · rw [eq_structuralAction hreq hs]
    exact ⟨UInt32.zero_le, UInt32.zero_le⟩
  by_cases hscoped : senderScoped policy classification
  · rw [sizeAction_sender hreq hscoped] at hs
    rw [← Option.some.inj hs]
    exact ⟨(senderCut policy.bounds hb _ _).chosen_le_most, UInt32.zero_le⟩
  · rw [sizeAction_destination hreq hscoped] at hs
    rw [← Option.some.inj hs]
    exact ⟨UInt32.zero_le, admissionAction_le _⟩

end Share

/-! ### The classification of a substituted rate -/

section Rate

variable {bundle : EvidenceBundle} {policy : GovernorPolicy}

theorem computeMetrics_withServiceRate (rate : Rate) :
    computeMetrics (bundle.withServiceRate rate) policy =
      { computeMetrics bundle policy with
        serviceRate := rate
        oversubscriptionBp := ratioBp
          (computeMetrics bundle policy).aggregateOffered.bytesPerSecond rate.bytesPerSecond } := rfl

theorem computeSynchronization_withServiceRate (rate : Rate) :
    computeSynchronization (bundle.withServiceRate rate)
        (computeMetrics (bundle.withServiceRate rate) policy) policy =
      computeSynchronization bundle (computeMetrics bundle policy) policy := rfl

/-- A smaller service rate never lowers the kind. -/
theorem detectedKind_withServiceRate {fast slow : Rate} (hpos : slow.positive)
    (hle : slow.bytesPerSecond ≤ fast.bytesPerSecond) :
    (detectedKind (bundle.withServiceRate fast) policy).rank ≤
      (detectedKind (bundle.withServiceRate slow) policy).rank := by
  unfold detectedKind
  simp only [computeSynchronization_withServiceRate]
  rw [computeMetrics_withServiceRate, computeMetrics_withServiceRate]
  exact classifyInstantaneous_rank_mono rfl (ratioBp_antitone _ hpos hle) (UInt32.le_refl _)
    (UInt64.le_refl _)

/-- The ranking reads the arrival of the metrics, and their rates for the shares alone. -/
theorem rankContributions_unshared {metrics other : FanInMetrics}
    {synchronization : SynchronizationEvidence} {collisions : List SenderCollision}
    (h : metrics.earliestArrival = other.earliestArrival) :
    (rankContributions bundle policy metrics synchronization collisions).map
        SenderContribution.unshared =
      (rankContributions bundle policy other synchronization collisions).map
        SenderContribution.unshared := by
  have hsort : ∀ contributions : List SenderContribution,
      (contributions.insertionSort fun a b => ¬b.ranksBefore a).map SenderContribution.unshared =
        (contributions.map SenderContribution.unshared).insertionSort fun a b => ¬b.ranksBefore a :=
    fun contributions => List.map_insertionSort _ _ _ _ fun _ _ _ _ => Iff.rfl
  unfold rankContributions
  rw [hsort, hsort, List.map_map, List.map_map]
  congr 2
  funext row
  simp only [Function.comp_apply, contributionOf, synchronizedLimit, h]
  rfl

end Rate

/-! ### Fresh governors -/

namespace Governor

/-- A governor under the default policy that has decided nothing yet, bound to the authority a
bundle carries. -/
structure FreshlyBound (g : Governor) (bundle : EvidenceBundle) : Prop where
  bound : ∃ config leaseExpiry, g = ((create config).bindAuthority bundle.epoch bundle.boot
    bundle.worker bundle.lease leaseExpiry).2
  default : g.config.policy = makeDefaultPolicy

variable {g : Governor} {bundle : EvidenceBundle}

/-- Binding authority touches neither the policy nor the history. -/
theorem bindAuthority_keeps (epoch : EpochId) (boot : BootIncarnation) (worker : WorkerId)
    (lease : LeaseId) (leaseExpiry : Timestamp) :
    (g.bindAuthority epoch boot worker lease leaseExpiry).2.config.policy = g.config.policy ∧
      (g.bindAuthority epoch boot worker lease leaseExpiry).2.state.history = g.state.history := by
  unfold bindAuthority
  simp only
  split <;> exact ⟨rfl, rfl⟩

theorem FreshlyBound.history (h : g.FreshlyBound bundle) : g.state.history = [] := by
  obtain ⟨config, leaseExpiry, rfl⟩ := h.bound
  exact (bindAuthority_keeps _ _ _ _ _).2

/-- What a classification reads of its metrics beside the collisions is what was computed. -/
theorem classified_metrics {α : Type} (field : FanInMetrics → α)
    (h : ∀ metrics collisions collided,
      field { metrics with collisions := collisions, collidedSenders := collided } = field metrics) :
    field (g.classified bundle).metrics = field (computeMetrics bundle g.config.policy) := by
  unfold classified
  rw [classify_metrics]
  exact h _ _ _

/-- Without a history and a live record the kind of a window is the instantaneous one. -/
theorem windowClassification_of_fresh (hh : g.state.history = []) (hv : g.liveView = none)
    (h : g.accepts bundle) :
    g.windowClassification bundle = g.classified bundle ∧
      (g.classified bundle).kind = detectedKind bundle g.config.policy := by
  have hgranted := (authorityGranted_of_accepts h).withoutSequences
  have hprior : g.classificationContext.priorKind = .unknown := by
    unfold classificationContext
    rw [hh]
    rfl
  have hkind : (applyHysteresis g.config.policy g.classificationContext
      (g.classified bundle).instantaneousKind).1 = (g.classified bundle).instantaneousKind := by
    simp [applyHysteresis, hprior, IncidentKind.rank]
  constructor
  · rw [windowClassification_eq, hv]
    simp
  · unfold classified at hkind ⊢
    rw [(classify_kind hgranted).1, hkind, classify_instantaneousKind hgranted,
      classify_synchronization]
    exact classified_metrics (fun metrics => classifyInstantaneous metrics
      (computeSynchronization bundle (computeMetrics bundle g.config.policy) g.config.policy)
      g.config.policy) fun _ _ _ => rfl

/-- The classifications of two accepted windows that differ in a positive service rate. -/
theorem classified_tightens (hh : g.state.history = []) (hv : g.liveView = none) {fast slow : Rate}
    (hpos : slow.positive) (hle : slow.bytesPerSecond ≤ fast.bytesPerSecond)
    (hf : g.accepts (bundle.withServiceRate fast)) (hs : g.accepts (bundle.withServiceRate slow)) :
    (g.windowClassification (bundle.withServiceRate fast)).Tightens
      (g.windowClassification (bundle.withServiceRate slow)) := by
  obtain ⟨hfast, hfastKind⟩ := windowClassification_of_fresh hh hv hf
  obtain ⟨hslow, hslowKind⟩ := windowClassification_of_fresh hh hv hs
  rw [hfast, hslow]
  refine ⟨?_, ?_, ?_, ?_, fun hactive => ?_⟩
  · rw [classified_metrics FanInMetrics.populationSaturated fun _ _ _ => rfl,
      classified_metrics FanInMetrics.populationSaturated fun _ _ _ => rfl]
    rfl
  · rw [classified_metrics FanInMetrics.aggregateOffered fun _ _ _ => rfl,
      classified_metrics FanInMetrics.aggregateOffered fun _ _ _ => rfl]
    rfl
  · have harrival : (g.classified (bundle.withServiceRate fast)).metrics.earliestArrival =
        (g.classified (bundle.withServiceRate slow)).metrics.earliestArrival := by
      rw [classified_metrics FanInMetrics.earliestArrival fun _ _ _ => rfl,
        classified_metrics FanInMetrics.earliestArrival fun _ _ _ => rfl]
      rfl
    unfold classified at harrival ⊢
    rw [classify_contributions (authorityGranted_of_accepts hf).withoutSequences,
      classify_contributions (authorityGranted_of_accepts hs).withoutSequences,
      classify_synchronization, classify_synchronization]
    exact rankContributions_unshared harrival
  · rw [classified_metrics FanInMetrics.serviceRate fun _ _ _ => rfl,
      classified_metrics FanInMetrics.serviceRate fun _ _ _ => rfl]
    exact hle
  · have hrank := @detectedKind_withServiceRate bundle g.config.policy _ _ hpos hle
    rw [← hfastKind, ← hslowKind, hactive] at hrank
    revert hrank
    cases (g.classified (bundle.withServiceRate slow)).kind <;> decide

/-- The magnitudes an issued intervention publishes are those of its action. -/
theorem issued_publishes (hb : GovernorPolicy.BoundsValid g.config.policy.bounds)
    (h : (g.evaluate bundle).1.outcome = .interventionIssued) :
    ∃ action, sizeAction g.config.policy (g.windowClassification bundle) = some action ∧
      (g.evaluate bundle).1.intent.reductionBp.value = action.reductionBp ∧
        (g.evaluate bundle).1.intent.admissionReductionBp.value = action.admissionBp := by
  obtain ⟨haccepts, hfence, hvacant, hacts⟩ := issued_iff.mp h
  obtain ⟨action, hsize, hintent⟩ := synthesis_intent_of_acts haccepts hacts
  have hissued : (g.evaluate bundle).1.intent = (g.synthesis bundle).intent := by
    rw [← issuedRecord_intent, evaluate_committed haccepts hfence, commit_intent]
    have hby := effect_by g bundle
    have hlive := (liveRecord_eq_none hfence).mpr hvacant
    generalize g.effect bundle = effect at hby
    cases hby with
    | issue => rfl
    | idle _ hidle => exact absurd hacts hidle
    | hold live hl | carryOn live hl | recover live hl | relax live hl | retireUnfounded live hl
    | keep live hl =>
      rw [hlive] at hl
      cases hl
  obtain ⟨hreduction, hadmission⟩ := sizeAction_within hb hsize
  rw [hissued, hintent]
  exact ⟨action, hsize, actionIntent_published hb hreduction hadmission⟩

/-- Against a smaller service rate a fresh governor asks for no smaller share. -/
theorem issued_share_le (hh : g.state.history = [])
    (hb : GovernorPolicy.BoundsValid g.config.policy.bounds)
    (hhalf : 5000 ≤ g.config.policy.recovery.relaxOversubscriptionBp.toNat)
    (hwhole : g.config.policy.recovery.relaxOversubscriptionBp.toNat ≤ 10000) {fast slow : Rate}
    (hpos : slow.positive) (hle : slow.bytesPerSecond ≤ fast.bytesPerSecond)
    (hf : (g.evaluate (bundle.withServiceRate fast)).1.outcome = .interventionIssued)
    (hs : (g.evaluate (bundle.withServiceRate slow)).1.outcome = .interventionIssued) :
    (g.evaluate (bundle.withServiceRate fast)).1.intent.reductionBp.value ≤
        (g.evaluate (bundle.withServiceRate slow)).1.intent.reductionBp.value ∧
      (g.evaluate (bundle.withServiceRate fast)).1.intent.admissionReductionBp.value ≤
        (g.evaluate (bundle.withServiceRate slow)).1.intent.admissionReductionBp.value := by
  obtain ⟨hfast, -, hvacant, -⟩ := issued_iff.mp hf
  obtain ⟨hslow, -, -, -⟩ := issued_iff.mp hs
  have htightens := classified_tightens hh hvacant hpos hle hfast hslow
  obtain ⟨looser, hlooser, hreduction, hadmission⟩ := issued_publishes hb hf
  obtain ⟨tighter, htighter, hreduction', hadmission'⟩ := issued_publishes hb hs
  rw [hreduction, hadmission, hreduction', hadmission']
  exact htightens.sizeAction_le (htightens.required_le hhalf hwhole) hlooser htighter

/-- Under the default policy mitigation is monotone in the oversubscription of a window. -/
theorem mitigation_mono_in_oversubscription (hg : g.FreshlyBound bundle) {fast slow : Rate}
    (hpos : slow.positive) (hle : slow.bytesPerSecond ≤ fast.bytesPerSecond)
    (hf : (g.evaluate (bundle.withServiceRate fast)).1.outcome = .interventionIssued)
    (hs : (g.evaluate (bundle.withServiceRate slow)).1.outcome = .interventionIssued) :
    (g.evaluate (bundle.withServiceRate fast)).1.intent.reductionBp.value ≤
        (g.evaluate (bundle.withServiceRate slow)).1.intent.reductionBp.value ∧
      (g.evaluate (bundle.withServiceRate fast)).1.intent.admissionReductionBp.value ≤
        (g.evaluate (bundle.withServiceRate slow)).1.intent.admissionReductionBp.value := by
  have hb : GovernorPolicy.BoundsValid g.config.policy.bounds := by
    rw [hg.default]
    exact GovernorPolicy.bounds_of_validate (by decide +kernel)
  have hshare : g.config.policy.recovery.relaxOversubscriptionBp = 9000 := by
    rw [hg.default]
    rfl
  exact issued_share_le hg.history hb (by rw [hshare]; decide) (by rw [hshare]; decide) hpos hle hf hs

/-- Eight senders that offer 12000 bytes per second together. -/
def burstBundle : EvidenceBundle :=
  sampleBundle 1 1000000000 ((List.range 8).map fun i => sampleRow (UInt64.ofNat (i + 1)) 1500)

def burstGovernor : Governor :=
  ((create {}).bindAuthority burstBundle.epoch burstBundle.boot burstBundle.worker burstBundle.lease
    ⟨9000000000000⟩).2

/-- A rate at which the burst is a risk, and one at which it is an active incast. -/
theorem mitigation_mono_in_oversubscription_burst :
    (burstGovernor.evaluate (burstBundle.withServiceRate ⟨8000⟩)).1.intent.reductionBp.value ≤
        (burstGovernor.evaluate (burstBundle.withServiceRate ⟨6000⟩)).1.intent.reductionBp.value ∧
      (burstGovernor.evaluate
            (burstBundle.withServiceRate ⟨8000⟩)).1.intent.admissionReductionBp.value ≤
        (burstGovernor.evaluate
          (burstBundle.withServiceRate ⟨6000⟩)).1.intent.admissionReductionBp.value := by
  have hfresh : burstGovernor.FreshlyBound burstBundle :=
    ⟨⟨{}, ⟨9000000000000⟩, rfl⟩, (bindAuthority_keeps _ _ _ _ _).1⟩
  exact mitigation_mono_in_oversubscription hfresh (by decide +kernel) (by decide +kernel)
    (by decide +kernel) (by decide +kernel)

end Governor

end IncastGovernor
