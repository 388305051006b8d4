import IncastGovernor.Foundation.Descent
import IncastGovernor.Governor.Bounds
import IncastGovernor.Governor.Targets

/-! The descent of a recovery. Every step under the policy's own step size takes at least the
minimum and at most a quarter off the reduction and raises nothing else, so a recovery that is
repeated ends. -/

namespace IncastGovernor

/-- A synthesis request of a recovery window with granted evidence, as the governor makes it: it
leaves the size of the step to the policy. -/
structure RecoveryRequest (request : SynthesisRequest) (policy : GovernorPolicy)
    (prior : MitigationIntent) : Prop where
  of_bundle : request.bundle.isSome
  of_policy : request.policy = some policy
  of_classification : ∃ classification, request.classification = some classification ∧
    classification.kind = .recovery
  of_prior : request.prior = some prior
  granted : request.check.reason = .none
  enabled : policy.enabled = true
  own_step : request.recoveryStepBp.value = 0

/-- The request of an accepted recovery window whose live record is not fenced off. -/
theorem Governor.synthesisRequest_recoveryRequest {g : Governor} {bundle : EvidenceBundle}
    (h : g.accepts bundle) (hf : g.liveFence bundle = none)
    (hk : (g.windowClassification bundle).kind = .recovery) {view : LiveView}
    (hv : g.liveView = some view) :
    RecoveryRequest (g.synthesisRequest bundle) g.config.policy view.live.intent where
  of_bundle := rfl
  of_policy := rfl
  of_classification := ⟨_, rfl, hk⟩
  of_prior := synthesisRequest_prior hf hv
  granted := h.2
  enabled := (authorityGranted_of_accepts h).enabled
  own_step := by
    change (g.recoveryVerdict bundle).stepBp.value = 0
    rcases recoveryVerdict_stepBp g bundle with hs | hs
    · rw [hs]
    · rw [hs]
      rfl

/-- What a step that does not retire the intent leaves of it. -/
structure RelaxedWithin (bounds : MitigationBounds) (prior next : MitigationIntent) : Prop where
  active : next.active
  respects : next.Respects bounds
  reduction_lt : next.reductionBp.value < prior.reductionBp.value
  reduction_ge : bounds.minReductionBp ≤ next.reductionBp.value
  drop_le : prior.reductionBp.value.toNat - next.reductionBp.value.toNat ≤
    max bounds.minReductionBp.toNat (prior.reductionBp.value.toNat / 4)
  penalized : next.penalizedSenders ⊆ prior.penalizedSenders
  admission : next.admissionReductionBp.value ≤ prior.admissionReductionBp.value
  headroom : next.headroomBytes.count ≤ prior.headroomBytes.count
  stagger : next.staggerSlots ≤ prior.staggerSlots

section Step

variable {bounds : MitigationBounds} {issued : Timestamp} {step : UInt32} {prior : MitigationIntent}

theorem recoveryStep_toNat {requested : BasisPoints} (h : requested.value = 0) :
    (recoveryStep bounds requested prior).toNat =
      max bounds.minReductionBp.toNat (prior.reductionBp.value.toNat / 4) := by
  rw [recoveryStep, if_neg (not_not.mpr h), UInt32.toNat_max, UInt32.toNat_div]
  rfl

theorem not_recoveryCompletes_iff :
    ¬recoveryCompletes bounds step prior ↔
      step.toNat < prior.reductionBp.value.toNat ∧
        bounds.minReductionBp.toNat ≤ prior.reductionBp.value.toNat - step.toNat := by
  unfold recoveryCompletes
  rw [not_or, UInt32.not_le, UInt32.not_lt, UInt32.lt_iff_toNat_lt]
  refine and_congr_right fun hlt => ?_
  rw [UInt32.le_iff_toNat_le, UInt32.toNat_sub_of_le _ _ (UInt32.le_iff_toNat_le.mpr hlt.le)]

theorem relaxedIntent_reductionBp (h : step.toNat ≤ prior.reductionBp.value.toNat) :
    (relaxedIntent bounds issued step prior).reductionBp.value.toNat =
      min (prior.reductionBp.value.toNat - step.toNat) bounds.maxReductionBp.toNat := by
  have hprior : prior.reductionBp.value.toNat ≤ 1000000 :=
    UInt32.le_iff_toNat_le.mp prior.reductionBp.value_le
  have hstepped : (BasisPoints.of (prior.reductionBp.value - step)).value.toNat =
      prior.reductionBp.value.toNat - step.toNat := by
    rw [BasisPoints.of_value_toNat, UInt32.toNat_sub_of_le _ _ (UInt32.le_iff_toNat_le.mpr h)]
    omega
  rw [← hstepped]
  exact MitigationIntent.clampToBounds_reductionBp _ _

theorem relaxedIntent_raises_nothing :
    (relaxedIntent bounds issued step prior).admissionReductionBp.value ≤
        prior.admissionReductionBp.value ∧
      (relaxedIntent bounds issued step prior).headroomBytes.count ≤ prior.headroomBytes.count ∧
        (relaxedIntent bounds issued step prior).staggerSlots ≤ prior.staggerSlots := by
  refine ⟨?_, ?_, ?_⟩
  · rw [UInt32.le_iff_toNat_le]
    exact (MitigationIntent.clampToBounds_admissionReductionBp _ _).trans_le (min_le_left _ _)
  · simp only [relaxedIntent, MitigationIntent.clampToBounds]
    split_ifs with h
    · exact UInt64.le_of_lt h
    · exact UInt64.le_refl _
  · simp only [relaxedIntent, MitigationIntent.clampToBounds]
    split_ifs with h
    · exact UInt32.le_of_lt h
    · exact UInt32.le_refl _

/-- A step of the policy's own size that does not complete the recovery. -/
theorem relaxedIntent_relaxedWithin (hb : GovernorPolicy.BoundsValid bounds)
    (hstep : step.toNat = max bounds.minReductionBp.toNat (prior.reductionBp.value.toNat / 4))
    (hc : ¬recoveryCompletes bounds step prior) (ha : prior.active) (hr : prior.Respects bounds) :
    RelaxedWithin bounds prior (relaxedIntent bounds issued step prior) := by
  obtain ⟨hlt, hleft⟩ := not_recoveryCompletes_iff.mp hc
  have hreduction := @relaxedIntent_reductionBp bounds issued step prior hlt.le
  have hmost := UInt32.le_iff_toNat_le.mp hr.reduction
  rw [min_eq_left (by omega)] at hreduction
  have hleast : 0 < bounds.minReductionBp.toNat :=
    Nat.pos_of_ne_zero fun h => hb.reduction_pos (Or.inl (UInt32.toNat_inj.mp h))
  obtain ⟨hadmission, hheadroom, hstagger⟩ := @relaxedIntent_raises_nothing bounds issued step prior
  exact {
    active := ha
    respects := relaxedIntent_respects (Int64.not_lt.mp hb.duration_le) issued step prior
    reduction_lt := by
      rw [UInt32.lt_iff_toNat_lt, hreduction]
      omega
    reduction_ge := by
      rw [UInt32.le_iff_toNat_le, hreduction]
      exact hleft
    drop_le := by
      rw [hreduction]
      omega
    penalized := List.take_subset _ _
    admission := hadmission
    headroom := hheadroom
    stagger := hstagger }

end Step

section Synthesis

variable {policy : GovernorPolicy} {prior : MitigationIntent} {request : SynthesisRequest}

/-- A recovery synthesis is authorized, and retires the prior intent or relaxes it by a step. -/
theorem synthesize_recoveryRequest (he : policy.recovery.enabled = true) (ha : prior.active)
    (h : RecoveryRequest request policy prior) :
    (synthesize request).authority.interventionAuthorized = true ∧
      ∃ issued step, step.toNat =
          max policy.bounds.minReductionBp.toNat (prior.reductionBp.value.toNat / 4) ∧
        (synthesize request).intent =
          if recoveryCompletes policy.bounds step prior then retiredIntent policy.bounds issued prior
          else relaxedIntent policy.bounds issued step prior := by
  obtain ⟨bundle, hbundle⟩ := Option.isSome_iff_exists.mp h.of_bundle
  obtain ⟨classification, hclassification, hkind⟩ := h.of_classification
  rw [synthesize_complete hbundle h.of_policy hclassification,
    synthesizeWindow_recovery h.granted h.enabled hkind, synthesizeRecovery_intent he h.of_prior ha,
    synthesizeRecovery_authorized_iff]
  exact ⟨⟨he, prior, h.of_prior, ha⟩, _, _, recoveryStep_toNat h.own_step, rfl⟩

theorem retiredIntent_not_active (bounds : MitigationBounds) (issued : Timestamp)
    (prior : MitigationIntent) : ¬(retiredIntent bounds issued prior).active :=
  fun h => h rfl

/-- Repeated recovery lowers the reduction by the minimum at least, whatever bounds the first intent
was made under. -/
theorem recovery_descends (he : policy.recovery.enabled = true) :
    Foundation.Descends MitigationIntent.active
      (fun prior next => ∃ request, RecoveryRequest request policy prior ∧
        next = (synthesize request).intent)
      (fun intent => intent.reductionBp.value.toNat) policy.bounds.minReductionBp.toNat := by
  rintro prior next ha ⟨request, h, rfl⟩
  obtain ⟨-, issued, step, hstep, hintent⟩ := synthesize_recoveryRequest he ha h
  rw [hintent]
  split_ifs with hc
  · exact Or.inl (retiredIntent_not_active _ _ _)
  · obtain ⟨hlt, -⟩ := not_recoveryCompletes_iff.mp hc
    right
    change (relaxedIntent _ _ _ _).reductionBp.value.toNat + _ ≤ prior.reductionBp.value.toNat
    rw [relaxedIntent_reductionBp hlt.le]
    omega

/-- One recovery step retires an active intent or relaxes it within the policy's step, and a
repeated recovery of any active intent ends. -/
theorem recovery_relaxes_and_ends (hv : policy.validate = .ok ())
    (he : policy.recovery.enabled = true) (ha : prior.active) :
    (prior.Respects policy.bounds → ∀ request, RecoveryRequest request policy prior →
      (synthesize request).authority.interventionAuthorized = true ∧
        (¬(synthesize request).intent.active ∨
          RelaxedWithin policy.bounds prior (synthesize request).intent)) ∧
    ∀ intents : ℕ → MitigationIntent, intents 0 = prior →
      (∀ n, (intents n).active → ∃ request, RecoveryRequest request policy (intents n) ∧
        intents (n + 1) = (synthesize request).intent) →
      ∃ n ≤ prior.reductionBp.value.toNat / policy.bounds.minReductionBp.toNat + 1,
        ¬(intents n).active := by
  have hb := GovernorPolicy.bounds_of_validate hv
  constructor
  · intro hr request h
    obtain ⟨hauthorized, issued, step, hstep, hintent⟩ := synthesize_recoveryRequest he ha h
    refine ⟨hauthorized, ?_⟩
    rw [hintent]
    split_ifs with hc
    · exact Or.inl (retiredIntent_not_active _ _ _)
    · exact Or.inr (relaxedIntent_relaxedWithin hb hstep hc ha hr)
  · rintro intents rfl hsteps
    have hleast : 0 < policy.bounds.minReductionBp.toNat :=
      Nat.pos_of_ne_zero fun h => hb.reduction_pos (Or.inl (UInt32.toNat_inj.mp h))
    exact (recovery_descends he).ends hleast hsteps

end Synthesis

/-- An intent that takes a tenth off the rate of one sender. -/
def tenthIntent : MitigationIntent :=
  { kind := .priorityAwareRateReduction, scope := .senderSet, reductionBp := BasisPoints.of 1000
    penalizedSenders := [(sampleRow 1 1500).identity], affectedClasses := [.bestEffort]
    duration := samplePolicy.bounds.maxDuration }

def tenthRequest : SynthesisRequest :=
  { bundle := some (sampleBundle 1 1000000000 []), policy := some samplePolicy
    classification := some { kind := .recovery }, prior := some tenthIntent }

theorem recovery_relaxes_and_ends_tenth :
    RelaxedWithin samplePolicy.bounds tenthIntent (synthesize tenthRequest).intent := by
  have hrequest : RecoveryRequest tenthRequest samplePolicy tenthIntent :=
    ⟨rfl, rfl, ⟨_, rfl, rfl⟩, rfl, rfl, rfl, rfl⟩
  have h := (recovery_relaxes_and_ends (by decide +kernel) rfl (by decide)).1 (by decide +kernel)
    tenthRequest hrequest
  exact h.2.resolve_left (not_not.mpr (by decide +kernel))

end IncastGovernor
