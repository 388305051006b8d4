import IncastGovernor.Mitigate.Synthesize

/-! The protected floor. An incident action takes a share of an offer, and the share
is clamped between the bounds of the policy. The offer that remains is at least the
protected one exactly when the least share leaves it and one of the wanted and the
largest share does. A sender-scoped share is taken from unprotected senders and
always leaves it; an admission share is taken from the whole offer and may not. -/

namespace IncastGovernor

/-! ### Shares of an offer -/

/-- A share of an offer in basis points, rounded down; the product is capped. -/
def shareOf (offer share : ℕ) : ℕ := min (offer * share) (2 ^ 64 - 1) / 10000

theorem applyBp_toNat (amount : UInt64) (basisPoints : UInt32) :
    (applyBp amount basisPoints).toNat = shareOf amount.toNat basisPoints.toNat := by
  unfold applyBp shareOf
  rw [UInt64.toNat_div, saturatingMul_toNat, UInt32.toNat_toUInt64]
  rfl

theorem shareOf_mono (offer : ℕ) : Monotone (shareOf offer) := by
  intro a b h
  unfold shareOf
  have hm : offer * a ≤ offer * b := Nat.mul_le_mul_left offer h
  exact Nat.div_le_div_right (min_le_min_right _ hm)

theorem shareOf_mono_offer (share : ℕ) : Monotone fun offer => shareOf offer share := by
  intro a b h
  have hm : a * share ≤ b * share := Nat.mul_le_mul_right share h
  exact Nat.div_le_div_right (min_le_min_right _ hm)

theorem shareOf_le {offer share : ℕ} (h : share ≤ 10000) : shareOf offer share ≤ offer := by
  unfold shareOf
  have hm : offer * share ≤ offer * 10000 := Nat.mul_le_mul_left offer h
  omega

theorem clampBp_toNat (value : UInt64) {low high : UInt32} (h : low ≤ high) :
    (clampBp value low high).toNat = max low.toNat (min value.toNat high.toNat) := by
  have hl := UInt32.le_iff_toNat_le.mp h
  have hh := high.toNat_lt
  unfold clampBp
  simp only [if_neg (UInt32.not_lt.mpr h)]
  split_ifs with h1 h2
  · rw [UInt64.lt_iff_toNat_lt, UInt32.toNat_toUInt64] at h1
    omega
  · rw [gt_iff_lt, UInt64.lt_iff_toNat_lt, UInt32.toNat_toUInt64] at h2
    omega
  · rw [UInt64.lt_iff_toNat_lt, UInt32.toNat_toUInt64] at h1
    rw [gt_iff_lt, UInt64.lt_iff_toNat_lt, UInt32.toNat_toUInt64] at h2
    rw [UInt64.toNat_toUInt32]
    omega

/-- The cut an incident asks for: the offer it is taken from, the wanted share of it,
and the bounds of the share. -/
structure RateCut where
  base : UInt64
  wanted : UInt64
  least : UInt32
  most : UInt32
  least_le_most : least ≤ most

namespace RateCut

/-- The clamped cut takes at most an amount. -/
def takesAtMost (cut : RateCut) (amount : ℕ) : Prop :=
  shareOf cut.base.toNat cut.least.toNat ≤ amount ∧
    (shareOf cut.base.toNat cut.wanted.toNat ≤ amount ∨
      shareOf cut.base.toNat cut.most.toNat ≤ amount)

instance (cut : RateCut) (amount : ℕ) : Decidable (cut.takesAtMost amount) := by
  delta takesAtMost; infer_instance

/-- What the clamped cut takes. -/
def taken (cut : RateCut) : UInt64 :=
  applyBp cut.base (clampBp cut.wanted cut.least cut.most)

theorem taken_le_iff (cut : RateCut) (amount : ℕ) :
    cut.taken.toNat ≤ amount ↔ cut.takesAtMost amount := by
  unfold taken takesAtMost
  rw [applyBp_toNat, clampBp_toNat _ cut.least_le_most, (shareOf_mono _).map_max,
    (shareOf_mono _).map_min, max_le_iff, min_le_iff]

theorem taken_le_base (cut : RateCut) (h : cut.most ≤ 10000) : cut.taken.toNat ≤ cut.base.toNat := by
  rw [taken_le_iff]
  have hm : cut.most.toNat ≤ 10000 := UInt32.le_iff_toNat_le.mp h
  have hl : cut.least.toNat ≤ cut.most.toNat := UInt32.le_iff_toNat_le.mp cut.least_le_most
  exact ⟨shareOf_le (hl.trans hm), Or.inr (shareOf_le hm)⟩

end RateCut

/-! ### The offers of a window -/

section Offers

variable {bundle : EvidenceBundle} {policy : GovernorPolicy} {collisions : List SenderCollision}
  {context : ClassificationContext}

def protectedRows (bundle : EvidenceBundle) (policy : GovernorPolicy) : List SenderObservation :=
  (countedRows bundle).filter fun row => isProtectedSender row policy

def unprotectedRows (bundle : EvidenceBundle) (policy : GovernorPolicy) : List SenderObservation :=
  (countedRows bundle).filter fun row => !decide (isProtectedSender row policy)

/-- The mitigable contributors offer at most what the unprotected rows do. -/
theorem mitigable_offer_le (metrics : FanInMetrics) (synchronization : SynchronizationEvidence) :
    (((rankContributions bundle policy metrics synchronization collisions).filter
        fun c => c.mitigable).map fun c => c.offeredRate.bytesPerSecond.toNat).sum ≤
      exactOffer (unprotectedRows bundle policy) := by
  let contribution := contributionOf policy metrics synchronization collisions
  have hperm := ((List.perm_insertionSort (fun a b : SenderContribution => ¬b.ranksBefore a)
    ((firstByKey [] (countedRows bundle)).map contribution)).filter fun c => c.mitigable).map
      fun c => c.offeredRate.bytesPerSecond.toNat
  have hrows : ((firstByKey [] (countedRows bundle)).filter
      ((fun c => c.mitigable) ∘ contribution)).Sublist (unprotectedRows bundle policy) := by
    refine ((firstByKey_sublist [] (countedRows bundle)).filter _).trans ?_
    refine List.monotone_filter_right _ fun row hrow => ?_
    have hp : ¬isProtectedSender row policy := (contributionOf_mitigable hrow).2.1
    simp [hp]
  unfold rankContributions
  rw [hperm.sum_eq, List.filter_map, List.map_map]
  exact exactOffer_le_of_sublist hrows

theorem classify_contributions_ranked :
    (classify bundle policy collisions context).contributions = [] ∨
      ∃ metrics synchronization excluded,
        (classify bundle policy collisions context).contributions =
          rankContributions bundle policy metrics synchronization excluded := by
  unfold classify
  simp only
  split_ifs
  · exact Or.inl rfl
  · exact Or.inr ⟨_, _, _, rfl⟩
  · exact Or.inr ⟨_, _, _, rfl⟩

/-- The selection offers at most what the unprotected rows do. -/
theorem selected_offer_le :
    ((selectedContributions policy (classify bundle policy collisions context)).map
        fun c => c.offeredRate.bytesPerSecond.toNat).sum ≤
      exactOffer (unprotectedRows bundle policy) := by
  unfold selectedContributions
  split_ifs
  · have htake := (List.take_sublist policy.bounds.maxPenalizedSenders.toNat
      ((classify bundle policy collisions context).contributions.filter fun c => c.mitigable)).map
        fun c => c.offeredRate.bytesPerSecond.toNat
    refine (htake.sum_le_sum fun _ _ => Nat.zero_le _).trans ?_
    obtain h | ⟨metrics, synchronization, excluded, h⟩ :=
      @classify_contributions_ranked bundle policy collisions context
    · rw [h]
      exact Nat.zero_le _
    · rw [h]
      exact mitigable_offer_le metrics synchronization
  · simp

theorem metrics_offered :
    (classify bundle policy collisions context).metrics.aggregateOffered.bytesPerSecond =
        offeredSum (countedRows bundle) ∧
      (classify bundle policy collisions context).metrics.protectedOffered.bytesPerSecond =
        offeredSum (protectedRows bundle policy) := by
  rw [classify_metrics]
  exact ⟨rfl, rfl⟩

theorem protected_le_aggregate :
    (classify bundle policy collisions context).metrics.protectedOffered.bytesPerSecond.toNat ≤
      (classify bundle policy collisions context).metrics.aggregateOffered.bytesPerSecond.toNat := by
  rw [metrics_offered.1, metrics_offered.2, offeredSum_toNat, offeredSum_toNat]
  exact min_le_min_right _ (exactOffer_le_of_sublist List.filter_sublist)

theorem mitigableOffer_toNat (selected : List SenderContribution) :
    (mitigableOffer selected).toNat =
      min (selected.map fun c => c.offeredRate.bytesPerSecond.toNat).sum (2 ^ 64 - 1) := by
  unfold mitigableOffer
  rw [saturatingSum_toNat, List.map_map]
  rfl

theorem mitigable_le_aggregate :
    (mitigableOffer
        (selectedContributions policy (classify bundle policy collisions context))).toNat ≤
      (classify bundle policy collisions context).metrics.aggregateOffered.bytesPerSecond.toNat := by
  rw [metrics_offered.1, mitigableOffer_toNat, offeredSum_toNat]
  have hall : exactOffer (unprotectedRows bundle policy) ≤ exactOffer (countedRows bundle) :=
    exactOffer_le_of_sublist List.filter_sublist
  exact min_le_min_right _ (selected_offer_le.trans hall)

/-- While the offers of a window fit 64 bits, the selection and the protected rows
share the aggregate. -/
theorem protected_add_mitigable_le (h : exactOffer (countedRows bundle) < 2 ^ 64) :
    (classify bundle policy collisions context).metrics.protectedOffered.bytesPerSecond.toNat +
        (mitigableOffer
          (selectedContributions policy (classify bundle policy collisions context))).toNat ≤
      (classify bundle policy collisions context).metrics.aggregateOffered.bytesPerSecond.toNat := by
  rw [metrics_offered.1, metrics_offered.2, mitigableOffer_toNat, offeredSum_toNat, offeredSum_toNat]
  have hsel := @selected_offer_le bundle policy collisions context
  have hsplit := exactOffer_split (fun row => isProtectedSender row policy) (countedRows bundle)
  change exactOffer (protectedRows bundle policy) + exactOffer (unprotectedRows bundle policy) = _
    at hsplit
  omega

end Offers

/-! ### The cut of an incident -/

section Cut

variable {bundle : EvidenceBundle} {policy : GovernorPolicy} {classification : Classification}

/-- The share of the selected offer. -/
def senderCut (bounds : MitigationBounds) (h : GovernorPolicy.BoundsValid bounds)
    (required offer : UInt64) : RateCut where
  base := offer
  wanted :=
    saturatingMul required 10000 / offer + if saturatingMul required 10000 % offer ≠ 0 then 1 else 0
  least := bounds.minReductionBp
  most := bounds.maxReductionBp
  least_le_most := h.reduction_le

/-- The share of the whole offer. -/
def admissionCut (bounds : MitigationBounds) (required aggregate : UInt64) : RateCut where
  base := aggregate
  wanted := saturatingMul required 10000 / if aggregate = 0 then 1 else aggregate
  least := min bounds.minReductionBp bounds.maxAdmissionReductionBp
  most := bounds.maxAdmissionReductionBp
  least_le_most := UInt32.min_le_right _ _

/-- The cut of a sender-scoped action where one is allowed and has an offer, and the
cut of the admission action otherwise. -/
def rateCut (policy : GovernorPolicy) (h : GovernorPolicy.BoundsValid policy.bounds)
    (classification : Classification) : RateCut :=
  let required := requiredReduction policy classification
  let offer := mitigableOffer (selectedContributions policy classification)
  if senderScopeAllowed policy classification ∧ offer > 0 then
    senderCut policy.bounds h required offer
  else
    admissionCut policy.bounds required classification.metrics.aggregateOffered.bytesPerSecond

/-- The cut falls short of the required reduction. -/
def fallsShort (policy : GovernorPolicy) (h : GovernorPolicy.BoundsValid policy.bounds)
    (classification : Classification) : Prop :=
  (rateCut policy h classification).takesAtMost ((requiredReduction policy classification).toNat - 1)

instance (h : GovernorPolicy.BoundsValid policy.bounds) :
    Decidable (fallsShort policy h classification) := by
  delta fallsShort; infer_instance

/-- The offer a cut has to leave: the protected offer where it falls short and is
escalated, else the part of it under the protected floor. -/
def keptOffer (bundle : EvidenceBundle) (policy : GovernorPolicy)
    (h : GovernorPolicy.BoundsValid policy.bounds) (classification : Classification) : ℕ :=
  let offered := classification.metrics.protectedOffered.bytesPerSecond.toNat
  let floor := (SynthesisRequest.protectedFloor bundle policy).bytesPerSecond.toNat
  if fallsShort policy h classification then offered else min offered floor

/-- The action is refused: its cut falls short, protected demand or a floor exists, and
escalation is disabled. -/
def refusesCut (bundle : EvidenceBundle) (policy : GovernorPolicy)
    (h : GovernorPolicy.BoundsValid policy.bounds) (classification : Classification) : Prop :=
  fallsShort policy h classification ∧
    (classification.metrics.protectedOffered.positive ∨
      (SynthesisRequest.protectedFloor bundle policy).bytesPerSecond ≠ 0) ∧
    ¬policy.protection.escalateInsteadOfViolatingFloor

instance (h : GovernorPolicy.BoundsValid policy.bounds) :
    Decidable (refusesCut bundle policy h classification) := by
  delta refusesCut; infer_instance

/-- A reduction is required and not refused, and its cut does not leave the offer it
has to. -/
def breaksFloor (bundle : EvidenceBundle) (policy : GovernorPolicy)
    (h : GovernorPolicy.BoundsValid policy.bounds) (classification : Classification) : Prop :=
  let aggregate := classification.metrics.aggregateOffered.bytesPerSecond.toNat
  requiredReduction policy classification ≠ 0 ∧ ¬refusesCut bundle policy h classification ∧
    ¬(rateCut policy h classification).takesAtMost
      (aggregate - keptOffer bundle policy h classification)

instance (h : GovernorPolicy.BoundsValid policy.bounds) :
    Decidable (breaksFloor bundle policy h classification) := by
  delta breaksFloor; infer_instance

end Cut

/-- A synthesis request for an incident window of a valid bundle under a valid policy. -/
structure IncidentRequest (request : SynthesisRequest) (bundle : EvidenceBundle)
    (policy : GovernorPolicy) (collisions : List SenderCollision) (context : ClassificationContext) :
    Prop where
  of_bundle : request.bundle = some bundle
  of_policy : request.policy = some policy
  of_classification : request.classification = some (classify bundle policy collisions context)
  structural : bundle.structurallyValid
  validated : policy.validate = .ok ()
  incident : (classify bundle policy collisions context).kind.incident

/-- A synthesis keeps the protected floor. An authorized intent that claims so leaves
the protected offer that lies under the floor; one that falls short is an escalation
that removes no protected demand; with escalation disabled the conflict is refused. -/
structure KeepsFloor (request : SynthesisRequest) (policy : GovernorPolicy) : Prop where
  floor : (synthesize request).authority.interventionAuthorized = true →
    (synthesize request).authority.protectedFloorPreserved = true →
      min (synthesize request).intent.protectedOffered.bytesPerSecond.toNat
          (synthesize request).intent.protectedFloor.bytesPerSecond.toNat ≤
        (synthesize request).intent.resultingOffered.bytesPerSecond.toNat
  escalation : (synthesize request).authority.interventionAuthorized = true →
    (synthesize request).intent.achievableReduction.bytesPerSecond <
        (synthesize request).intent.requiredReduction.bytesPerSecond →
      (synthesize request).intent.escalating = true ∧
        (synthesize request).intent.protectedOffered.bytesPerSecond.toNat ≤
          (synthesize request).intent.resultingOffered.bytesPerSecond.toNat
  refusal : request.check.reason = .none →
    (synthesize request).authority.refusal = .protectedFloorConflict →
      (synthesize request).authority.interventionAuthorized = false ∧
        ¬(synthesize request).intent.active ∧
        policy.protection.escalateInsteadOfViolatingFloor = false
  conflict : policy.protection.escalateInsteadOfViolatingFloor = false →
    (synthesize request).authority.interventionAuthorized = true →
    (synthesize request).intent.achievableReduction.bytesPerSecond <
        (synthesize request).intent.requiredReduction.bytesPerSecond →
      (synthesize request).intent.protectedOffered.bytesPerSecond = 0 ∧
        (synthesize request).intent.protectedFloor.bytesPerSecond = 0

section Synthesis

variable {request : SynthesisRequest} {bundle : EvidenceBundle} {policy : GovernorPolicy}
  {classification : Classification} {action : SizedAction}

/-- The action of a required reduction takes the cut. -/
theorem sizeAction_achievable (h : GovernorPolicy.BoundsValid policy.bounds)
    (hreq : requiredReduction policy classification ≠ 0) :
    ∃ action, sizeAction policy classification = some action ∧
      action.achievable = (rateCut policy h classification).taken := by
  by_cases hs : senderScopeAllowed policy classification ∧
      mitigableOffer (selectedContributions policy classification) > 0
  · refine ⟨_, by rw [sizeAction, if_neg hreq, if_pos hs], ?_⟩
    rw [rateCut, if_pos hs]
    rfl
  · refine ⟨_, by rw [sizeAction, if_neg hreq, if_neg hs], ?_⟩
    rw [rateCut, if_neg hs]
    rfl

theorem residualDemand_pos_iff {required achievable : UInt64} :
    residualDemand required achievable > 0 ↔ achievable < required := by
  unfold residualDemand
  split_ifs with h
  · have hlt := UInt64.lt_iff_toNat_lt.mp h
    rw [gt_iff_lt, UInt64.lt_iff_toNat_lt, UInt64.toNat_sub_of_le _ _ (UInt64.le_of_lt h)]
    refine iff_of_true ?_ h
    rw [UInt64.toNat_zero]
    omega
  · exact iff_of_false (UInt64.lt_irrefl 0) h

theorem fallsShort_iff (h : GovernorPolicy.BoundsValid policy.bounds)
    (hreq : requiredReduction policy classification ≠ 0) :
    fallsShort policy h classification ↔
      (rateCut policy h classification).taken < requiredReduction policy classification := by
  have hpos : (requiredReduction policy classification).toNat ≠ 0 := fun hz =>
    hreq (UInt64.toNat_inj.mp hz)
  unfold fallsShort
  rw [← RateCut.taken_le_iff, UInt64.lt_iff_toNat_lt]
  omega

/-- The figures of an authorized action's intent. -/
theorem actionIntent_figures :
    (actionIntent request bundle policy classification action).protectedOffered =
        classification.metrics.protectedOffered ∧
      (actionIntent request bundle policy classification action).protectedFloor =
        SynthesisRequest.protectedFloor bundle policy ∧
      (actionIntent request bundle policy classification action).requiredReduction.bytesPerSecond =
        requiredReduction policy classification ∧
      (actionIntent request bundle policy classification action).achievableReduction.bytesPerSecond =
        action.achievable ∧
      (actionIntent request bundle policy classification action).resultingOffered.bytesPerSecond =
        if classification.metrics.aggregateOffered.bytesPerSecond ≥ action.achievable then
          classification.metrics.aggregateOffered.bytesPerSecond - action.achievable
        else 0 := by
  unfold actionIntent finishIntent
  split_ifs <;> exact ⟨rfl, rfl, rfl, rfl, by simp [escalate, sizedIntent, *]⟩

theorem actionIntent_escalating
    (h : action.achievable < requiredReduction policy classification) :
    (actionIntent request bundle policy classification action).escalating = true := by
  have hres := residualDemand_pos_iff.mpr h
  simp [actionIntent, finishIntent, hres, escalate]

/-- What remains of the aggregate after a cut that is part of it. -/
theorem actionIntent_resulting
    (h : action.achievable.toNat ≤
      classification.metrics.aggregateOffered.bytesPerSecond.toNat) :
    (actionIntent request bundle policy classification
        action).resultingOffered.bytesPerSecond.toNat =
      classification.metrics.aggregateOffered.bytesPerSecond.toNat - action.achievable.toNat := by
  have hle : action.achievable ≤ classification.metrics.aggregateOffered.bytesPerSecond :=
    UInt64.le_iff_toNat_le.mpr h
  rw [actionIntent_figures.2.2.2.2, if_pos hle, UInt64.toNat_sub_of_le _ _ hle]

/-- A denied synthesis keeps the floor if it refuses for a conflict only where
escalation is disabled. -/
theorem keepsFloor_of_denied
    (ha : (synthesize request).authority.interventionAuthorized = false)
    (hr : request.check.reason = .none →
      (synthesize request).authority.refusal = .protectedFloorConflict →
        ¬(synthesize request).intent.active ∧
          policy.protection.escalateInsteadOfViolatingFloor = false) :
    KeepsFloor request policy where
  floor h := absurd (ha ▸ h) Bool.false_ne_true
  escalation h := absurd (ha ▸ h) Bool.false_ne_true
  refusal hc hp := ⟨ha, hr hc hp⟩
  conflict _ h := absurd (ha ▸ h) Bool.false_ne_true

/-- An authorized action keeps the floor exactly when its cut leaves the offer it has
to, and is a conflict only where escalation is enabled. -/
theorem keepsFloor_of_authorized
    (ha : (synthesize request).authority.interventionAuthorized = true)
    (hp : (synthesize request).authority.protectedFloorPreserved = true)
    (hr : (synthesize request).authority.refusal = .none)
    (hi : (synthesize request).intent = actionIntent request bundle policy classification action)
    (hle : action.achievable.toNat ≤ classification.metrics.aggregateOffered.bytesPerSecond.toNat)
    (hprot : classification.metrics.protectedOffered.bytesPerSecond.toNat ≤
      classification.metrics.aggregateOffered.bytesPerSecond.toNat)
    (hconflict : action.achievable < requiredReduction policy classification →
      policy.protection.escalateInsteadOfViolatingFloor = false →
        classification.metrics.protectedOffered.bytesPerSecond = 0 ∧
          (SynthesisRequest.protectedFloor bundle policy).bytesPerSecond = 0) :
    KeepsFloor request policy ↔
      action.achievable.toNat ≤
        classification.metrics.aggregateOffered.bytesPerSecond.toNat -
          if action.achievable < requiredReduction policy classification then
            classification.metrics.protectedOffered.bytesPerSecond.toNat
          else
            min classification.metrics.protectedOffered.bytesPerSecond.toNat
              (SynthesisRequest.protectedFloor bundle policy).bytesPerSecond.toNat := by
  obtain ⟨hoffered, hfloor, hrequired, hachievable, -⟩ :=
    @actionIntent_figures request bundle policy classification action
  have hresulting := @actionIntent_resulting request bundle policy classification action hle
  rw [← hi] at hoffered hfloor hrequired hachievable hresulting
  constructor
  · intro h
    have hf := h.floor ha hp
    have he := h.escalation ha
    rw [hachievable, hrequired] at he
    rw [hoffered, hfloor, hresulting] at hf
    split_ifs with hshort
    · have hk := (he hshort).2
      rw [hoffered, hresulting] at hk
      omega
    · omega
  · intro h
    refine ⟨fun _ _ => ?_, fun _ hshort => ?_, fun _ hc => ?_, fun hdisabled _ hshort => ?_⟩
    · rw [hoffered, hfloor, hresulting]
      split_ifs at h <;> omega
    · rw [hachievable, hrequired] at hshort
      rw [if_pos hshort] at h
      refine ⟨?_, ?_⟩
      · rw [hi]
        exact actionIntent_escalating hshort
      · rw [hoffered, hresulting]
        omega
    · rw [hr] at hc
      cases hc
    · rw [hachievable, hrequired] at hshort
      rw [hoffered, hfloor]
      exact hconflict hshort hdisabled

theorem actionRefused_iff (h : GovernorPolicy.BoundsValid policy.bounds)
    (hreq : requiredReduction policy classification ≠ 0)
    (hach : action.achievable = (rateCut policy h classification).taken) :
    actionRefused bundle policy classification action ↔
      refusesCut bundle policy h classification := by
  unfold actionRefused refusesCut
  rw [residualDemand_pos_iff, fallsShort_iff h hreq, hach]

theorem breaksFloor_iff (h : GovernorPolicy.BoundsValid policy.bounds)
    (hreq : requiredReduction policy classification ≠ 0)
    (hr : ¬refusesCut bundle policy h classification) :
    ¬breaksFloor bundle policy h classification ↔
      (rateCut policy h classification).taken.toNat ≤
        classification.metrics.aggregateOffered.bytesPerSecond.toNat -
          if (rateCut policy h classification).taken < requiredReduction policy classification then
            classification.metrics.protectedOffered.bytesPerSecond.toNat
          else
            min classification.metrics.protectedOffered.bytesPerSecond.toNat
              (SynthesisRequest.protectedFloor bundle policy).bytesPerSecond.toNat := by
  have hkept : keptOffer bundle policy h classification =
      if (rateCut policy h classification).taken < requiredReduction policy classification then
        classification.metrics.protectedOffered.bytesPerSecond.toNat
      else
        min classification.metrics.protectedOffered.bytesPerSecond.toNat
          (SynthesisRequest.protectedFloor bundle policy).bytesPerSecond.toNat := by
    simp only [keptOffer, fallsShort_iff h hreq]
  rw [← hkept, RateCut.taken_le_iff]
  unfold breaksFloor
  constructor
  · intro hb
    by_contra hnot
    exact hb ⟨hreq, hr, hnot⟩
  · rintro hk ⟨-, -, hnot⟩
    exact hnot hk

/-- The result of an action that is not refused. -/
theorem synthesize_of_action {intent : MitigationIntent} {authority : AuthorityVector}
    (hw : synthesize request =
      synthesizeIncident request bundle policy classification intent authority)
    (h : sizeAction policy classification = some action)
    (hr : ¬actionRefused bundle policy classification action) :
    (synthesize request).authority.interventionAuthorized = true ∧
      (synthesize request).authority.protectedFloorPreserved = true ∧
      (synthesize request).authority.refusal = .none ∧
      (synthesize request).intent = actionIntent request bundle policy classification action := by
  obtain ⟨ha, hrefusal, hi⟩ := @synthesizeIncident_authorized request bundle policy classification
    intent authority action h hr
  have hc : ¬(residualDemand (requiredReduction policy classification) action.achievable > 0 ∧
      floorConflict classification.metrics (sizedIntent request bundle policy classification action) ∧
      ¬policy.protection.escalateInsteadOfViolatingFloor) := hr
  rw [hw]
  refine ⟨ha, ?_, hrefusal, hi⟩
  simp only [synthesizeIncident, h]
  rw [if_neg hc]

theorem synthesizeIncident_conflict {intent : MitigationIntent} {authority : AuthorityVector}
    (h : sizeAction policy classification = none) :
    (synthesizeIncident request bundle policy classification intent authority).authority.refusal ≠
      .protectedFloorConflict := by
  rw [(synthesizeIncident_none h).2.1]
  decide

end Synthesis

section Main

variable {request : SynthesisRequest} {bundle : EvidenceBundle} {policy : GovernorPolicy}
  {collisions : List SenderCollision} {context : ClassificationContext}

/-- The cut is part of the aggregate. -/
theorem taken_le_aggregate (h : GovernorPolicy.BoundsValid policy.bounds) :
    (rateCut policy h (classify bundle policy collisions context)).taken.toNat ≤
      (classify bundle policy collisions
        context).metrics.aggregateOffered.bytesPerSecond.toNat := by
  unfold rateCut
  simp only
  split_ifs with hs
  · exact (RateCut.taken_le_base _ h.reduction_whole).trans mitigable_le_aggregate
  · exact RateCut.taken_le_base _ h.admission_whole

/-- A sender-scoped cut leaves the protected offer while the offers of the window fit
64 bits: it is taken from unprotected senders only. -/
theorem sender_cut_leaves_protected (h : GovernorPolicy.BoundsValid policy.bounds)
    (hfit : exactOffer (countedRows bundle) < 2 ^ 64)
    (hs : senderScopeAllowed policy (classify bundle policy collisions context) ∧
      mitigableOffer (selectedContributions policy (classify bundle policy collisions context)) > 0) :
    ¬breaksFloor bundle policy h (classify bundle policy collisions context) := by
  rintro ⟨-, -, hbreak⟩
  refine hbreak ((RateCut.taken_le_iff _ _).mp ?_)
  have hbase : (rateCut policy h (classify bundle policy collisions context)).taken.toNat ≤
      (mitigableOffer
        (selectedContributions policy (classify bundle policy collisions context))).toNat := by
    rw [rateCut, if_pos hs]
    exact RateCut.taken_le_base _ h.reduction_whole
  have hshare := @protected_add_mitigable_le bundle policy collisions context hfit
  have hkept : keptOffer bundle policy h (classify bundle policy collisions context) ≤
      (classify bundle policy collisions
        context).metrics.protectedOffered.bytesPerSecond.toNat := by
    unfold keptOffer
    simp only
    split_ifs
    · exact le_refl _
    · exact min_le_left _ _
  omega

/-- A synthesis denied by its check or by a disabled policy keeps the floor. -/
theorem keepsFloor_of_check (h : IncidentRequest request bundle policy collisions context)
    (hdeny : request.check.reason ≠ .none ∨ policy.enabled = false) : KeepsFloor request policy := by
  have hwindow := synthesize_complete h.of_bundle h.of_policy h.of_classification
  have hun := @synthesizeWindow_unauthorized request bundle policy
    (classify bundle policy collisions context) (hdeny.imp id Or.inl)
  refine keepsFloor_of_denied (by rw [hwindow, hun.1]) fun hr hp => ?_
  have he : policy.enabled = false := hdeny.resolve_left (not_not.mpr hr)
  rw [hwindow] at hp
  simp [synthesizeWindow, hr, he] at hp

/-- Without a required reduction the action is structural, or there is none. -/
theorem keepsFloor_of_no_reduction (h : IncidentRequest request bundle policy collisions context)
    (hr : request.check.reason = .none) (he : policy.enabled = true)
    (hreq : requiredReduction policy (classify bundle policy collisions context) = 0) :
    KeepsFloor request policy := by
  have hwindow := synthesize_complete h.of_bundle h.of_policy h.of_classification
  rw [synthesizeWindow_incident hr he h.incident] at hwindow
  by_cases hk : (classify bundle policy collisions context).kind = .activeIncast
  · have hsize : sizeAction policy (classify bundle policy collisions context) =
        some (structuralAction policy (classify bundle policy collisions context).metrics) := by
      rw [sizeAction, if_pos hreq, if_pos hk]
    have hshort : ¬(0 : UInt64) < requiredReduction policy
        (classify bundle policy collisions context) := by
      rw [hreq]
      exact UInt64.lt_irrefl 0
    have hnot : ¬actionRefused bundle policy (classify bundle policy collisions context)
        (structuralAction policy (classify bundle policy collisions context).metrics) :=
      fun hrefused => hshort (residualDemand_pos_iff.mp hrefused.1)
    obtain ⟨ha, hp, hrefusal, hi⟩ := synthesize_of_action hwindow hsize hnot
    exact (keepsFloor_of_authorized ha hp hrefusal hi (Nat.zero_le _) protected_le_aggregate
      fun hc => absurd hc hshort).mpr (Nat.zero_le _)
  · have hsize : sizeAction policy (classify bundle policy collisions context) = none := by
      rw [sizeAction, if_pos hreq, if_neg hk]
    refine keepsFloor_of_denied ?_ fun _ hp => ?_
    · rw [hwindow]
      exact (synthesizeIncident_none hsize).1
    · rw [hwindow] at hp
      exact absurd hp (synthesizeIncident_conflict hsize)

/-- With a required reduction the synthesis keeps the floor exactly when its cut does
not break it. -/
theorem keepsFloor_of_reduction (h : IncidentRequest request bundle policy collisions context)
    (hbounds : GovernorPolicy.BoundsValid policy.bounds)
    (hr : request.check.reason = .none) (he : policy.enabled = true)
    (hreq : requiredReduction policy (classify bundle policy collisions context) ≠ 0) :
    KeepsFloor request policy ↔
      ¬breaksFloor bundle policy hbounds (classify bundle policy collisions context) := by
  have hwindow := synthesize_complete h.of_bundle h.of_policy h.of_classification
  rw [synthesizeWindow_incident hr he h.incident] at hwindow
  obtain ⟨action, hsize, hach⟩ := sizeAction_achievable hbounds hreq
  by_cases hrefused : refusesCut bundle policy hbounds (classify bundle policy collisions context)
  · have hden := @synthesizeIncident_refused request bundle policy _
      (request.bindings bundle policy (classify bundle policy collisions context))
      (request.authority bundle policy (classify bundle policy collisions context)) action
      hsize ((actionRefused_iff hbounds hreq hach).mpr hrefused)
    rw [← hwindow] at hden
    refine iff_of_true (keepsFloor_of_denied hden.1 fun _ _ => ⟨?_, ?_⟩) fun hb => hb.2.1 hrefused
    · rw [hden.2]
      decide
    · exact Bool.not_eq_true _ ▸ hrefused.2.2
  · have hnot := mt (actionRefused_iff hbounds hreq hach).mp hrefused
    obtain ⟨ha, hp, hrefusal, hi⟩ := synthesize_of_action hwindow hsize hnot
    have hle : action.achievable.toNat ≤ (classify bundle policy collisions
        context).metrics.aggregateOffered.bytesPerSecond.toNat := by
      rw [hach]
      exact taken_le_aggregate hbounds
    rw [breaksFloor_iff hbounds hreq hrefused, ← hach]
    refine keepsFloor_of_authorized ha hp hrefusal hi hle protected_le_aggregate ?_
    intro hshort hdisabled
    by_contra hconflict
    rw [not_and_or] at hconflict
    rw [hach, ← fallsShort_iff hbounds hreq] at hshort
    exact hrefused ⟨hshort, hconflict, by simp [hdisabled]⟩

/-- A synthesis for an incident keeps the protected floor exactly when its authority or
policy denies it or its cut does not break the floor. -/
theorem synthesize_keepsFloor_iff (h : IncidentRequest request bundle policy collisions context) :
    KeepsFloor request policy ↔
      (request.check.reason = .none → policy.enabled = true →
        ¬breaksFloor bundle policy (GovernorPolicy.bounds_of_validate h.validated)
          (classify bundle policy collisions context)) := by
  by_cases hr : request.check.reason = .none
  · by_cases he : policy.enabled = true
    · by_cases hreq : requiredReduction policy (classify bundle policy collisions context) = 0
      · exact iff_of_true (keepsFloor_of_no_reduction h hr he hreq) fun _ _ hb => hb.1 hreq
      · rw [keepsFloor_of_reduction h (GovernorPolicy.bounds_of_validate h.validated) hr he hreq]
        exact ⟨fun hb _ _ => hb, fun hb => hb hr he⟩
    · have hdisabled : policy.enabled = false := Bool.not_eq_true _ ▸ he
      exact iff_of_true (keepsFloor_of_check h (Or.inr hdisabled)) fun _ hen => absurd hen he
  · exact iff_of_true (keepsFloor_of_check h (Or.inl hr)) fun hn => absurd hn hr

/-- The request of one window without a history. -/
def windowRequest (bundle : EvidenceBundle) (policy : GovernorPolicy) : SynthesisRequest :=
  { bundle := some bundle, policy := some policy
    classification := some (classify bundle policy [] {}) }

theorem synthesize_keepsFloor_sample :
    KeepsFloor
        (windowRequest (sampleBundle 1 1000000000 [sampleRow 1 1500, sampleRow 2 1500]) samplePolicy)
        samplePolicy := by
  refine (synthesize_keepsFloor_iff ⟨rfl, rfl, rfl, ?_, ?_, ?_⟩).mpr fun _ _ => ?_
  · decide +kernel
  · decide +kernel
  · decide +kernel
  · decide +kernel

/-- Two protected senders that offer three times the service rate, under a floor that
covers nearly all of it. -/
def protectedBundle : EvidenceBundle :=
  sampleBundle 1 1000000000
    [{ sampleRow 1 1500 with protectedObligation := true },
      { sampleRow 2 1500 with protectedObligation := true }]

def floorPolicy : GovernorPolicy :=
  { samplePolicy with protection := { protectedFloorRate := ⟨2900⟩ } }

/-- The admission cut takes half of an offer that is protected as a whole. -/
theorem admission_cut_breaks_floor :
    ¬∀ request bundle policy collisions context,
      IncidentRequest request bundle policy collisions context → KeepsFloor request policy := by
  intro h
  have hkeeps := h (windowRequest protectedBundle floorPolicy) protectedBundle floorPolicy [] {}
    ⟨rfl, rfl, rfl, by decide +kernel, by decide +kernel, by decide +kernel⟩
  have hfloor := hkeeps.floor (by decide +kernel) (by decide +kernel)
  have hbroken : ¬min
        (synthesize (windowRequest protectedBundle
          floorPolicy)).intent.protectedOffered.bytesPerSecond.toNat
        (synthesize (windowRequest protectedBundle
          floorPolicy)).intent.protectedFloor.bytesPerSecond.toNat ≤
      (synthesize (windowRequest protectedBundle
        floorPolicy)).intent.resultingOffered.bytesPerSecond.toNat := by
    decide +kernel
  exact hbroken hfloor

end Main

end IncastGovernor
