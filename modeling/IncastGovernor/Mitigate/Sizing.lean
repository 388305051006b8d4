import Mathlib.Algebra.Order.Floor.Div
import IncastGovernor.Foundation.LeastInRange
import IncastGovernor.Mitigate.Floor

/-! The size of an incident action. The sender-scoped share is rounded up and the admission
share is rounded down, and both are computed from a product that is capped at 64 bits. The
chosen share is the least sufficient one of the policy's range exactly where neither the
rounding nor the cap shows through the clamp. -/

namespace IncastGovernor

/-! ### Shares that cover a requirement -/

/-- A share of an offer, rounded down, covers the requirement. -/
def covers (offer required share : ℕ) : Prop := required ≤ offer * share / 10000

instance (offer required share : ℕ) : Decidable (covers offer required share) := by
  delta covers; infer_instance

/-- The least share that covers a requirement. -/
def neededShare (offer required : ℕ) : ℕ := (required * 10000) ⌈/⌉ offer

theorem covers_iff {offer required share : ℕ} (h : 0 < offer) :
    covers offer required share ↔ neededShare offer required ≤ share := by
  unfold covers neededShare
  rw [Nat.le_div_iff_mul_le (by decide), ceilDiv_le_iff_le_smul h, smul_eq_mul]

/-- The product of a requirement with 10000, capped at 64 bits. -/
def cappedScale (required : ℕ) : ℕ := min (required * 10000) (2 ^ 64 - 1)

theorem cappedScale_mono : Monotone cappedScale :=
  fun _ _ h => min_le_min_right _ (Nat.mul_le_mul_right _ h)

theorem cappedScale_of_fits {required : ℕ} (h : required * 10000 < 2 ^ 64) :
    cappedScale required = required * 10000 := by
  unfold cappedScale
  omega

theorem cappedScale_of_exceeds {required : ℕ} (h : ¬required * 10000 < 2 ^ 64) :
    cappedScale required = 2 ^ 64 - 1 := by
  unfold cappedScale
  omega

theorem scaled_toNat (required : UInt64) :
    (saturatingMul required 10000).toNat = cappedScale required.toNat := by
  rw [saturatingMul_toNat]
  rfl

theorem ceilDiv_eq_div_add {value offer : ℕ} (h : 0 < offer) :
    value ⌈/⌉ offer = value / offer + if value % offer = 0 then 0 else 1 := by
  have hdecompose := Nat.div_add_mod value offer
  have hmod := Nat.mod_lt value h
  have hsum : value + offer - 1 = offer * (value / offer) + (value % offer + offer - 1) := by omega
  rw [Nat.ceilDiv_eq_add_pred_div, hsum, Nat.mul_add_div h]
  congr 1
  split_ifs with hz
  · exact Nat.div_eq_of_lt (by omega)
  · rw [Nat.div_eq_iff h]
    omega

theorem ceilDiv_toNat (value : UInt64) {offer : UInt64} (h : 0 < offer.toNat) :
    (value / offer + if value % offer ≠ 0 then 1 else 0).toNat = value.toNat ⌈/⌉ offer.toNat := by
  have hzero : value % offer = 0 ↔ value.toNat % offer.toNat = 0 := by
    rw [← UInt64.toNat_mod, ← UInt64.toNat_inj, UInt64.toNat_zero]
  rw [ceilDiv_eq_div_add h, UInt64.toNat_add, UInt64.toNat_div]
  by_cases hz : value % offer = 0
  · have hlt : value.toNat / offer.toNat < 2 ^ 64 :=
      (Nat.div_le_self _ _).trans_lt value.toNat_lt
    rw [if_neg (not_not.mpr hz), if_pos (hzero.mp hz), UInt64.toNat_zero, Nat.add_zero,
      Nat.mod_eq_of_lt hlt]
  · have hne : value.toNat % offer.toNat ≠ 0 := mt hzero.mpr hz
    have hone : offer.toNat ≠ 1 := fun ho => hne (by rw [ho, Nat.mod_one])
    have hhalf : value.toNat / offer.toNat ≤ value.toNat / 2 :=
      Nat.div_le_div_left (by omega) (by decide)
    have hvalue := value.toNat_lt
    rw [if_pos hz, if_neg hne, UInt64.toNat_one, Nat.mod_eq_of_lt (by omega)]

namespace RateCut

/-- The share the clamp chooses. -/
def chosen (cut : RateCut) : UInt32 := clampBp cut.wanted cut.least cut.most

/-- The chosen share is the least of the range that covers the requirement, or its maximum when
none does; and the cut falls short only where the maximum does not cover. -/
def sufficient (cut : RateCut) (required : ℕ) : Prop :=
  Foundation.LeastInRange cut.least.toNat cut.most.toNat (covers cut.base.toNat required)
      cut.chosen.toNat ∧
    (cut.taken.toNat < required → ¬covers cut.base.toNat required cut.most.toNat)

/-- Below the cap the cut is not short exactly when its share covers. -/
theorem required_le_taken_iff (cut : RateCut) {required : ℕ} (h : required * 10000 < 2 ^ 64) :
    required ≤ cut.taken.toNat ↔ covers cut.base.toNat required cut.chosen.toNat := by
  unfold taken covers chosen
  rw [applyBp_toNat]
  unfold shareOf
  rw [Nat.le_div_iff_mul_le (by decide), Nat.le_div_iff_mul_le (by decide)]
  omega

/-- Above it every cut is short. -/
theorem taken_lt_required (cut : RateCut) {required : ℕ} (h : ¬required * 10000 < 2 ^ 64) :
    cut.taken.toNat < required := by
  unfold taken
  rw [applyBp_toNat]
  unfold shareOf
  rw [Nat.div_lt_iff_lt_mul (by decide)]
  omega

/-- A cut whose wanted share is at most the needed one is sufficient exactly when the clamp hides
the difference, and above the cap only where the maximum does not cover. -/
theorem sufficient_iff (cut : RateCut) {required : ℕ} (hbase : 0 < cut.base.toNat)
    (hw : cut.wanted.toNat ≤ neededShare cut.base.toNat required) :
    cut.sufficient required ↔
      (cut.wanted.toNat = neededShare cut.base.toNat required ∨
          neededShare cut.base.toNat required ≤ cut.least.toNat ∨
          cut.most.toNat ≤ cut.wanted.toNat ∨ cut.most.toNat ≤ cut.least.toNat) ∧
        (required * 10000 < 2 ^ 64 ∨ cut.most.toNat < neededShare cut.base.toNat required) := by
  have hrange : cut.least.toNat ≤ cut.most.toNat := UInt32.le_iff_toNat_le.mp cut.least_le_most
  have hcovers := fun share => @covers_iff cut.base.toNat required share hbase
  have hchosen : cut.chosen.toNat = max cut.least.toNat (min cut.wanted.toNat cut.most.toNat) :=
    clampBp_toNat _ cut.least_le_most
  unfold sufficient
  rw [Foundation.leastInRange_iff hrange hcovers, hchosen,
    Foundation.clamp_eq_clamp_iff hrange hw, hcovers, not_le]
  refine and_congr_right fun hclamp => ?_
  by_cases hfits : required * 10000 < 2 ^ 64
  · have htaken := cut.required_le_taken_iff hfits
    rw [hcovers, hchosen, (Foundation.clamp_eq_clamp_iff hrange hw).mpr hclamp] at htaken
    refine iff_of_true (fun hshort => ?_) (Or.inl hfits)
    have hlt : ¬neededShare cut.base.toNat required ≤
        max cut.least.toNat (min (neededShare cut.base.toNat required) cut.most.toNat) :=
      fun hle => absurd (htaken.mpr hle) (not_le.mpr hshort)
    by_contra hle
    rw [min_eq_left (not_lt.mp hle)] at hlt
    exact hlt (le_max_right _ _)
  · have hshort := cut.taken_lt_required hfits
    simp only [hfits, hshort, true_implies, false_or]

end RateCut

/-! ### The two paths -/

section Paths

variable {request : SynthesisRequest} {bundle : EvidenceBundle} {policy : GovernorPolicy}
  {classification : Classification} {action : SizedAction}

/-- A sender-scoped action is allowed and has an offer. -/
def senderScoped (policy : GovernorPolicy) (classification : Classification) : Prop :=
  senderScopeAllowed policy classification ∧
    mitigableOffer (selectedContributions policy classification) > 0

instance (policy : GovernorPolicy) (classification : Classification) :
    Decidable (senderScoped policy classification) := by
  delta senderScoped; infer_instance

/-- A synthesis for an incident that requires a reduction. -/
structure SizingRequest (request : SynthesisRequest) (bundle : EvidenceBundle)
    (policy : GovernorPolicy) (classification : Classification) : Prop where
  of_bundle : request.bundle = some bundle
  of_policy : request.policy = some policy
  of_classification : request.classification = some classification
  checked : request.check.reason = .none
  enabled : policy.enabled = true
  bounds : GovernorPolicy.BoundsValid policy.bounds
  incident : classification.kind.incident
  required : requiredReduction policy classification ≠ 0

/-- The result marks its action as falling short. -/
def marksShort (result : SynthesisResult) : Prop :=
  result.intent.insufficient = true ∨ result.intent.escalating = true ∨
    result.authority.refusal = .protectedFloorConflict

instance (result : SynthesisResult) : Decidable (marksShort result) := by
  delta marksShort; infer_instance

/-- The action of a synthesis takes the least sufficient share of its path, the intent publishes
it, and the result falls short only where the maximum of the path does not cover. -/
structure SizesLeast (request : SynthesisRequest) (policy : GovernorPolicy)
    (classification : Classification) (action : SizedAction) : Prop where
  sender : senderScoped policy classification →
    Foundation.LeastInRange policy.bounds.minReductionBp.toNat policy.bounds.maxReductionBp.toNat
      (covers (mitigableOffer (selectedContributions policy classification)).toNat
        (requiredReduction policy classification).toNat) action.reductionBp.toNat
  destination : ¬senderScoped policy classification →
    Foundation.LeastInRange
      (min policy.bounds.minReductionBp policy.bounds.maxAdmissionReductionBp).toNat
      policy.bounds.maxAdmissionReductionBp.toNat
      (covers classification.metrics.aggregateOffered.bytesPerSecond.toNat
        (requiredReduction policy classification).toNat) action.admissionBp.toNat
  published : (synthesize request).authority.interventionAuthorized = true →
    (synthesize request).intent.reductionBp.value = action.reductionBp ∧
      (synthesize request).intent.admissionReductionBp.value = action.admissionBp
  sender_binding : senderScoped policy classification → marksShort (synthesize request) →
    ¬covers (mitigableOffer (selectedContributions policy classification)).toNat
      (requiredReduction policy classification).toNat policy.bounds.maxReductionBp.toNat
  destination_binding : ¬senderScoped policy classification → marksShort (synthesize request) →
    ¬covers classification.metrics.aggregateOffered.bytesPerSecond.toNat
      (requiredReduction policy classification).toNat
      policy.bounds.maxAdmissionReductionBp.toNat

/-- The synthesis sizes an action, and takes the least sufficient share. -/
def sizesLeast (request : SynthesisRequest) (policy : GovernorPolicy)
    (classification : Classification) : Prop :=
  ∃ action, sizeAction policy classification = some action ∧
    SizesLeast request policy classification action

/-- Neither the rounding of the path nor the cap of the product shows. While the product of the
requirement with 10000 fits 64 bits the sender path is exact, and the admission path is where the
aggregate divides the product or the clamp hides the difference of one. Beyond 64 bits the
maximum has to fall short of the requirement, and the capped quotient has to reach it. -/
def sizesExactly (policy : GovernorPolicy) (classification : Classification) : Prop :=
  let required := (requiredReduction policy classification).toNat
  let bounds := policy.bounds
  if senderScoped policy classification then
    let offer := (mitigableOffer (selectedContributions policy classification)).toNat
    required * 10000 < 2 ^ 64 ∨
      bounds.maxReductionBp.toNat < neededShare offer required ∧
        (bounds.maxReductionBp.toNat ≤ (2 ^ 64 - 1) ⌈/⌉ offer ∨
          bounds.maxReductionBp.toNat ≤ bounds.minReductionBp.toNat)
  else
    let aggregate := classification.metrics.aggregateOffered.bytesPerSecond.toNat
    let most := bounds.maxAdmissionReductionBp.toNat
    let least := min bounds.minReductionBp.toNat most
    if required * 10000 < 2 ^ 64 then
      aggregate ∣ required * 10000 ∨ neededShare aggregate required ≤ least ∨
        most ≤ required * 10000 / aggregate
    else
      most < neededShare aggregate required ∧
        (most ≤ (2 ^ 64 - 1) / aggregate ∨ most ≤ least)

instance (policy : GovernorPolicy) (classification : Classification) :
    Decidable (sizesExactly policy classification) := by
  unfold sizesExactly
  infer_instance

/-! ### The cut of each path -/

theorem eq_structuralAction (hreq : requiredReduction policy classification = 0)
    (hs : sizeAction policy classification = some action) :
    action = structuralAction policy classification.metrics := by
  unfold sizeAction at hs
  simp only [hreq, if_true] at hs
  split_ifs at hs
  exact (Option.some.inj hs).symm

theorem sizeAction_sender (hreq : requiredReduction policy classification ≠ 0)
    (hs : senderScoped policy classification) :
    sizeAction policy classification =
      some (senderAction policy classification.kind classification.metrics
        (requiredReduction policy classification) (selectedContributions policy classification)) := by
  unfold senderScoped at hs
  rw [sizeAction, if_neg hreq, if_pos hs]

theorem sizeAction_destination (hreq : requiredReduction policy classification ≠ 0)
    (hs : ¬senderScoped policy classification) :
    sizeAction policy classification =
      some (admissionAction policy classification.metrics (requiredReduction policy classification)
        (decide (senderScopeAllowed policy classification))) := by
  unfold senderScoped at hs
  rw [sizeAction, if_neg hreq, if_neg hs]

theorem rateCut_sender (h : GovernorPolicy.BoundsValid policy.bounds)
    (hs : senderScoped policy classification) :
    rateCut policy h classification =
      senderCut policy.bounds h (requiredReduction policy classification)
        (mitigableOffer (selectedContributions policy classification)) := if_pos hs

theorem rateCut_destination (h : GovernorPolicy.BoundsValid policy.bounds)
    (hs : ¬senderScoped policy classification) :
    rateCut policy h classification =
      admissionCut policy.bounds (requiredReduction policy classification)
        classification.metrics.aggregateOffered.bytesPerSecond := if_neg hs

theorem mitigableOffer_pos (hs : senderScoped policy classification) :
    0 < (mitigableOffer (selectedContributions policy classification)).toNat :=
  UInt64.lt_iff_toNat_lt.mp hs.2

theorem requiredReduction_toNat :
    (requiredReduction policy classification).toNat =
      classification.metrics.aggregateOffered.bytesPerSecond.toNat -
        (reductionTarget policy classification).toNat := by
  unfold requiredReduction
  simp only
  split_ifs with h
  · exact UInt64.toNat_sub_of_le _ _ (UInt64.le_of_lt h)
  · have hle := UInt64.le_iff_toNat_le.mp (UInt64.not_lt.mp h)
    rw [UInt64.toNat_zero]
    omega

/-- A requirement is a part of the aggregate. -/
theorem aggregate_pos (hreq : requiredReduction policy classification ≠ 0) :
    0 < classification.metrics.aggregateOffered.bytesPerSecond.toNat := by
  have hpos : (requiredReduction policy classification).toNat ≠ 0 :=
    fun hz => hreq (UInt64.toNat_inj.mp hz)
  rw [requiredReduction_toNat] at hpos
  omega

theorem senderCut_wanted (bounds : MitigationBounds) (h : GovernorPolicy.BoundsValid bounds)
    (required : UInt64) {offer : UInt64} (ho : 0 < offer.toNat) :
    (senderCut bounds h required offer).wanted.toNat =
      cappedScale required.toNat ⌈/⌉ offer.toNat := by
  rw [← scaled_toNat, ← ceilDiv_toNat _ ho]
  rfl

theorem admissionCut_wanted (bounds : MitigationBounds) (required : UInt64) {aggregate : UInt64}
    (ha : 0 < aggregate.toNat) :
    (admissionCut bounds required aggregate).wanted.toNat =
      cappedScale required.toNat / aggregate.toNat := by
  have hne : aggregate ≠ 0 := fun hz => by simp [hz] at ha
  unfold admissionCut
  rw [if_neg hne, UInt64.toNat_div, scaled_toNat]

theorem ceilDiv_le_neededShare {offer : ℕ} (ho : 0 < offer) (required : ℕ) :
    cappedScale required ⌈/⌉ offer ≤ neededShare offer required := by
  unfold neededShare
  rw [ceilDiv_le_iff_le_smul ho]
  exact (min_le_left _ _).trans (le_smul_ceilDiv ho)

theorem div_le_neededShare {aggregate : ℕ} (ha : 0 < aggregate) (required : ℕ) :
    cappedScale required / aggregate ≤ neededShare aggregate required := by
  have hfloor : cappedScale required / aggregate ≤ cappedScale required ⌈/⌉ aggregate := by
    rw [ceilDiv_eq_div_add ha]
    exact Nat.le_add_right _ _
  exact hfloor.trans (ceilDiv_le_neededShare ha required)

/-- A quotient rounded down is the one rounded up exactly when the division is exact, and one less
otherwise. -/
theorem div_cases {value offer : ℕ} (h : 0 < offer) :
    (offer ∣ value ∧ value ⌈/⌉ offer = value / offer) ∨
      (¬offer ∣ value ∧ value ⌈/⌉ offer = value / offer + 1) := by
  rw [ceilDiv_eq_div_add h, Nat.dvd_iff_mod_eq_zero]
  by_cases hz : value % offer = 0
  · exact Or.inl ⟨hz, by simp [hz]⟩
  · exact Or.inr ⟨hz, by simp [hz]⟩

theorem min_toNat (a b : UInt32) : (min a b).toNat = min a.toNat b.toNat := by
  have hmin : min a b = if a ≤ b then a else b := rfl
  rw [hmin]
  split_ifs with h
  · exact (min_eq_left (UInt32.le_iff_toNat_le.mp h)).symm
  · exact (min_eq_right (UInt32.lt_iff_toNat_lt.mp (UInt32.not_le.mp h)).le).symm

/-- The cut of the path is sufficient exactly when the path sizes exactly. -/
theorem rateCut_sufficient_iff (h : GovernorPolicy.BoundsValid policy.bounds)
    (hreq : requiredReduction policy classification ≠ 0) :
    (rateCut policy h classification).sufficient (requiredReduction policy classification).toNat ↔
      sizesExactly policy classification := by
  unfold sizesExactly
  simp only
  by_cases hs : senderScoped policy classification
  · have hoffer := mitigableOffer_pos hs
    have hwanted := senderCut_wanted policy.bounds h (requiredReduction policy classification) hoffer
    have hle := ceilDiv_le_neededShare hoffer (requiredReduction policy classification).toNat
    rw [rateCut_sender h hs, if_pos hs, RateCut.sufficient_iff _ hoffer (hwanted.trans_le hle),
      hwanted]
    simp only [senderCut]
    by_cases hfits : (requiredReduction policy classification).toNat * 10000 < 2 ^ 64
    · rw [cappedScale_of_fits hfits]
      exact iff_of_true ⟨Or.inl rfl, Or.inl hfits⟩ (Or.inl hfits)
    · have hrange := UInt32.le_iff_toNat_le.mp h.reduction_le
      rw [cappedScale_of_exceeds hfits] at hle ⊢
      simp only [hfits, false_or]
      omega
  · have haggregate := aggregate_pos hreq
    have hwanted := admissionCut_wanted policy.bounds (requiredReduction policy classification)
      haggregate
    have hle := div_le_neededShare haggregate (requiredReduction policy classification).toNat
    rw [rateCut_destination h hs, if_neg hs,
      RateCut.sufficient_iff _ haggregate (hwanted.trans_le hle), hwanted]
    simp only [admissionCut, min_toNat]
    by_cases hfits : (requiredReduction policy classification).toNat * 10000 < 2 ^ 64
    · have hcases := @div_cases ((requiredReduction policy classification).toNat * 10000) _
        haggregate
      rw [cappedScale_of_fits hfits] at hle ⊢
      simp only [hfits, if_true, true_or, and_true]
      unfold neededShare
      omega
    · rw [cappedScale_of_exceeds hfits] at hle ⊢
      simp only [hfits, if_false, false_or]
      omega

/-! ### What a synthesis marks and publishes -/

/-- A result falls short in the open exactly when its action does. -/
theorem marksShort_iff (h : SizingRequest request bundle policy classification)
    (hs : sizeAction policy classification = some action) :
    marksShort (synthesize request) ↔
      action.achievable < requiredReduction policy classification := by
  have hwindow := synthesize_complete h.of_bundle h.of_policy h.of_classification
  rw [synthesizeWindow_incident h.checked h.enabled h.incident] at hwindow
  rw [← residualDemand_pos_iff]
  by_cases hr : actionRefused bundle policy classification action
  · have hc : residualDemand (requiredReduction policy classification) action.achievable > 0 ∧
        floorConflict classification.metrics
          (sizedIntent request bundle policy classification action) ∧
        ¬policy.protection.escalateInsteadOfViolatingFloor := hr
    refine iff_of_true (Or.inr (Or.inr ?_)) hr.1
    rw [hwindow]
    simp only [synthesizeIncident, hs]
    rw [if_pos hc]
  · obtain ⟨-, -, hrefusal, hi⟩ := synthesize_of_action hwindow hs hr
    unfold marksShort
    rw [hrefusal, hi]
    simp only [actionIntent, finishIntent, MitigationIntent.clampToBounds]
    split_ifs with hres
    · exact iff_of_true (Or.inl rfl) hres
    · exact iff_of_false (by simp [sizedIntent, SynthesisRequest.bindings]) hres

theorem actionIntent_reductionBp :
    (actionIntent request bundle policy classification action).reductionBp.value.toNat =
      min (min action.reductionBp.toNat 1000000) policy.bounds.maxReductionBp.toNat := by
  rw [← BasisPoints.of_value_toNat]
  unfold actionIntent
  simp only
  split_ifs <;> exact MitigationIntent.clampToBounds_reductionBp _ _

theorem actionIntent_admissionReductionBp :
    (actionIntent request bundle policy classification action).admissionReductionBp.value.toNat =
      min (min action.admissionBp.toNat 1000000) policy.bounds.maxAdmissionReductionBp.toNat := by
  rw [← BasisPoints.of_value_toNat]
  unfold actionIntent
  simp only
  split_ifs <;> exact MitigationIntent.clampToBounds_admissionReductionBp _ _

/-- The intent of an action within the bounds publishes it as it was sized. -/
theorem actionIntent_published (h : GovernorPolicy.BoundsValid policy.bounds)
    (hreduction : action.reductionBp ≤ policy.bounds.maxReductionBp)
    (hadmission : action.admissionBp ≤ policy.bounds.maxAdmissionReductionBp) :
    (actionIntent request bundle policy classification action).reductionBp.value =
        action.reductionBp ∧
      (actionIntent request bundle policy classification action).admissionReductionBp.value =
        action.admissionBp := by
  have hleft := UInt32.le_iff_toNat_le.mp h.reduction_whole
  have hright := UInt32.le_iff_toNat_le.mp h.admission_whole
  have hwhole : (10000 : UInt32).toNat = 10000 := rfl
  rw [UInt32.le_iff_toNat_le] at hreduction hadmission
  rw [← UInt32.toNat_inj, ← UInt32.toNat_inj, actionIntent_reductionBp,
    actionIntent_admissionReductionBp]
  omega

/-- An action within the bounds is published as it was sized. -/
theorem published_of_bounded (h : SizingRequest request bundle policy classification)
    (hs : sizeAction policy classification = some action)
    (hreduction : action.reductionBp ≤ policy.bounds.maxReductionBp)
    (hadmission : action.admissionBp ≤ policy.bounds.maxAdmissionReductionBp)
    (ha : (synthesize request).authority.interventionAuthorized = true) :
    (synthesize request).intent.reductionBp.value = action.reductionBp ∧
      (synthesize request).intent.admissionReductionBp.value = action.admissionBp := by
  have hwindow := synthesize_complete h.of_bundle h.of_policy h.of_classification
  rw [synthesizeWindow_incident h.checked h.enabled h.incident] at hwindow
  have hr : ¬actionRefused bundle policy classification action := fun hr => by
    rw [hwindow, (synthesizeIncident_refused hs hr).1] at ha
    cases ha
  obtain ⟨-, -, -, hi⟩ := synthesize_of_action hwindow hs hr
  rw [hi]
  exact actionIntent_published h.bounds hreduction hadmission

/-- The chosen share is within the range of its cut. -/
theorem RateCut.chosen_le_most (cut : RateCut) : cut.chosen ≤ cut.most := by
  have hrange : cut.least.toNat ≤ cut.most.toNat := UInt32.le_iff_toNat_le.mp cut.least_le_most
  rw [UInt32.le_iff_toNat_le, RateCut.chosen, clampBp_toNat _ cut.least_le_most]
  exact max_le hrange (min_le_right _ _)

/-- A synthesis takes the least sufficient share of its path exactly when neither the rounding nor
the cap of that path shows. -/
theorem sizesLeast_iff (h : SizingRequest request bundle policy classification) :
    sizesLeast request policy classification ↔ sizesExactly policy classification := by
  rw [← rateCut_sufficient_iff h.bounds h.required]
  by_cases hs : senderScoped policy classification
  · have hsize := sizeAction_sender h.required hs
    rw [rateCut_sender h.bounds hs]
    set cut := senderCut policy.bounds h.bounds (requiredReduction policy classification)
      (mitigableOffer (selectedContributions policy classification)) with hcut
    have hmarks := marksShort_iff h hsize
    rw [UInt64.lt_iff_toNat_lt] at hmarks
    constructor
    · rintro ⟨action, haction, hleast⟩
      obtain rfl := Option.some.inj (hsize.symm.trans haction)
      exact ⟨hleast.sender hs, fun hshort => hleast.sender_binding hs (hmarks.mpr hshort)⟩
    · rintro ⟨hleast, hbinding⟩
      refine ⟨_, hsize, fun _ => hleast, fun hn => absurd hs hn, ?_,
        fun _ hmark => hbinding (hmarks.mp hmark), fun hn => absurd hs hn⟩
      exact published_of_bounded h hsize cut.chosen_le_most (UInt32.le_iff_toNat_le.mpr (Nat.zero_le _))
  · have hsize := sizeAction_destination h.required hs
    rw [rateCut_destination h.bounds hs]
    set cut := admissionCut policy.bounds (requiredReduction policy classification)
      classification.metrics.aggregateOffered.bytesPerSecond with hcut
    have hmarks := marksShort_iff h hsize
    rw [UInt64.lt_iff_toNat_lt] at hmarks
    constructor
    · rintro ⟨action, haction, hleast⟩
      obtain rfl := Option.some.inj (hsize.symm.trans haction)
      exact ⟨hleast.destination hs,
        fun hshort => hleast.destination_binding hs (hmarks.mpr hshort)⟩
    · rintro ⟨hleast, hbinding⟩
      refine ⟨_, hsize, fun hp => absurd hp hs, fun _ => hleast, ?_, fun hp => absurd hp hs,
        fun _ hmark => hbinding (hmarks.mp hmark)⟩
      exact published_of_bounded h hsize (UInt32.le_iff_toNat_le.mpr (Nat.zero_le _))
        cut.chosen_le_most

theorem sizingRequest_of_window {bundle : EvidenceBundle} (henabled : policy.enabled = true)
    (hvalid : policy.validate = .ok ()) (hk : (classify bundle policy [] {}).kind.incident)
    (hreq : requiredReduction policy (classify bundle policy [] {}) ≠ 0) :
    SizingRequest (windowRequest bundle policy) bundle policy (classify bundle policy [] {}) :=
  ⟨rfl, rfl, rfl, rfl, henabled, GovernorPolicy.bounds_of_validate hvalid, hk, hreq⟩

/-- Two mitigable senders: a reduction by 7000 of 10000 is required, and half of it is allowed. -/
theorem sizesLeast_sample :
    sizesLeast
      (windowRequest (sampleBundle 1 1000000000 [sampleRow 1 1500, sampleRow 2 1500]) samplePolicy)
      samplePolicy
      (classify (sampleBundle 1 1000000000 [sampleRow 1 1500, sampleRow 2 1500]) samplePolicy [] {}) :=
  (sizesLeast_iff (sizingRequest_of_window (by decide) (by decide +kernel) (by decide +kernel)
    (by decide +kernel))).mpr (by decide +kernel)

/-- Two protected senders that offer 1400, of which 400 have to go. -/
def indivisibleBundle : EvidenceBundle :=
  sampleBundle 1 1000000000
    [{ sampleRow 1 700 with protectedObligation := true },
      { sampleRow 2 700 with protectedObligation := true }]

/-- The admission share is rounded down to 2857, which takes 399; the next share takes 400. -/
theorem admission_share_falls_short :
    ¬∀ request bundle policy classification,
      SizingRequest request bundle policy classification →
        sizesLeast request policy classification := by
  intro h
  obtain ⟨action, haction, hleast⟩ := h _ _ _ _
    (@sizingRequest_of_window samplePolicy indivisibleBundle (by decide) (by decide +kernel)
      (by decide +kernel) (by decide +kernel))
  have hchosen : (sizeAction samplePolicy (classify indivisibleBundle samplePolicy [] {})).map
      (fun action => action.admissionBp) = some 2857 := by
    decide +kernel
  rw [haction] at hchosen
  have hadmission : action.admissionBp = 2857 := Option.some.inj hchosen
  have hfigures : ¬senderScoped samplePolicy (classify indivisibleBundle samplePolicy [] {}) ∧
      ¬covers (classify indivisibleBundle samplePolicy []
          {}).metrics.aggregateOffered.bytesPerSecond.toNat
        (requiredReduction samplePolicy (classify indivisibleBundle samplePolicy [] {})).toNat 2857 ∧
      covers (classify indivisibleBundle samplePolicy []
          {}).metrics.aggregateOffered.bytesPerSecond.toNat
        (requiredReduction samplePolicy (classify indivisibleBundle samplePolicy [] {})).toNat
        2858 := by
    decide +kernel
  obtain ⟨hdestination, hshort, hcovers⟩ := hfigures
  have hrange := hleast.destination hdestination
  rw [hadmission] at hrange
  rcases hrange with ⟨⟨-, -, hc⟩, -⟩ | ⟨-, hnone⟩
  · exact hshort hc
  · exact hnone 2858 (by decide) (by decide) hcovers

end Paths

end IncastGovernor
