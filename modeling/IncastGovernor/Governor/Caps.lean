import IncastGovernor.Foundation.Unwinding
import IncastGovernor.Governor.Dwell
import IncastGovernor.Governor.Targets
import IncastGovernor.Policy.Digest

/-! Two governors that differ in the caps of their streaks. The caps and the streaks reach a
decision only through the dwell: where both streaks answer it alike, the two evaluations make
one decision and leave states that differ in the streaks again. -/

namespace IncastGovernor

/-! ### Documents with other caps -/

section Documents

variable {bundle : EvidenceBundle} {policy : GovernorPolicy}
  (maxIncidentWindows maxCleanWindows : UInt32)

/-- The streaks reach a classification through the dwell. -/
theorem classify_withCaps {collisions : List SenderCollision} {context other : ClassificationContext}
    (hprior : other.priorKind = context.priorKind)
    (hdwell : other.cleanStreak + 1 ≥ policy.hysteresis.minDwellWindows ↔
      context.cleanStreak + 1 ≥ policy.hysteresis.minDwellWindows) :
    classify bundle (policy.withCaps maxIncidentWindows maxCleanWindows) collisions other =
      classify bundle policy collisions context := by
  have happly : ∀ kind,
      applyHysteresis (policy.withCaps maxIncidentWindows maxCleanWindows) other kind =
        applyHysteresis policy context kind := by
    intro kind
    unfold applyHysteresis
    show (if _ then if ¬other.cleanStreak + 1 ≥ policy.hysteresis.minDwellWindows then _ else _
      else _) = _
    simp only [hprior, hdwell]
  unfold classify
  simp only [happly]
  rfl

/-- A synthesis reads neither the caps nor whether relaxation is permitted. -/
theorem synthesizeWindow_withCaps (request : SynthesisRequest) (document : Option GovernorPolicy)
    (permitted : Bool) (classification : Classification) :
    synthesizeWindow
        { request with policy := document, recoveryRelaxationPermitted := permitted } bundle
        (policy.withCaps maxIncidentWindows maxCleanWindows) classification =
      synthesizeWindow request bundle policy classification := by
  have hincident : ∀ intent authority,
      synthesizeIncident
          { request with policy := document, recoveryRelaxationPermitted := permitted } bundle
          (policy.withCaps maxIncidentWindows maxCleanWindows) classification intent authority =
        synthesizeIncident request bundle policy classification intent authority := by
    intro intent authority
    have haction : sizeAction (policy.withCaps maxIncidentWindows maxCleanWindows)
        classification = sizeAction policy classification := rfl
    unfold synthesizeIncident
    rw [haction]
    cases sizeAction policy classification <;> rfl
  have hrecovery : ∀ intent authority,
      synthesizeRecovery
          { request with policy := document, recoveryRelaxationPermitted := permitted } bundle
          (policy.withCaps maxIncidentWindows maxCleanWindows) intent authority =
        synthesizeRecovery request bundle policy intent authority := by
    intro intent authority
    unfold synthesizeRecovery
    simp only
    cases request.prior.filter fun prior => prior.active <;> rfl
  unfold synthesizeWindow
  simp only [hincident, hrecovery]
  rfl

end Documents

/-! ### Governors with other caps and streaks -/

/-- The fields of a state that count windows. -/
structure Streaks where
  incident : UInt32
  clean : UInt32
  recovery : UInt32

/-- The streaks after a window. -/
def Streaks.next (streaks : Streaks) (hysteresis : HysteresisPolicy) (kind : IncidentKind)
    (live : Bool) : Streaks :=
  if kind.incident then
    { incident := min (streaks.incident + 1) hysteresis.maxIncidentWindows, clean := 0
      recovery := 0 }
  else
    { incident := 0
      clean := min (streaks.clean + 1) hysteresis.maxCleanWindows
      recovery :=
        if live then min (streaks.clean + 1) hysteresis.maxCleanWindows else streaks.recovery }

theorem Streaks.next_clean (streaks : Streaks) (hysteresis : HysteresisPolicy)
    (kind : IncidentKind) (live : Bool) :
    (streaks.next hysteresis kind live).clean = nextStreak hysteresis streaks.clean kind := by
  unfold next nextStreak
  split_ifs <;> rfl

def GovernorState.withStreaks (state : GovernorState) (streaks : Streaks) : GovernorState :=
  { state with
    incidentStreak := streaks.incident
    cleanStreak := streaks.clean
    recovery := { state.recovery with cleanWindows := streaks.recovery } }

namespace Governor

/-- The governor under a document with other caps, with other streaks. -/
def recapped (g : Governor) (caps : UInt32 × UInt32) (streaks : Streaks) : Governor :=
  { g with
    config := { g.config with policy := g.config.policy.withCaps caps.1 caps.2 }
    state := g.state.withStreaks streaks }

variable (g : Governor) (bundle : EvidenceBundle) (caps : UInt32 × UInt32) (streaks : Streaks)

/-- The streak of the other governor answers the dwell as this one does. -/
def SameDwell : Prop :=
  streaks.clean + 1 ≥ g.config.policy.hysteresis.minDwellWindows ↔ g.dwellMet

@[simp] theorem recapped_bindingRefusal :
    (g.recapped caps streaks).bindingRefusal bundle = g.bindingRefusal bundle := rfl

@[simp] theorem recapped_authorityCheck :
    (g.recapped caps streaks).authorityCheck bundle = g.authorityCheck bundle := rfl

@[simp] theorem recapped_boundDecision :
    (g.recapped caps streaks).boundDecision bundle = g.boundDecision bundle := rfl

@[simp] theorem recapped_liveView : (g.recapped caps streaks).liveView = g.liveView := rfl

@[simp] theorem recapped_liveRecord :
    (g.recapped caps streaks).liveRecord bundle = g.liveRecord bundle := rfl

theorem recapped_refuse (decision : Decision) (reason : RefusalReason) (detail : Text) :
    (g.recapped caps streaks).refuse decision reason detail =
      ((g.refuse decision reason detail).1,
        (g.refuse decision reason detail).2.recapped caps streaks) := rfl

/-- A refused bundle leaves the streaks alone. -/
theorem recapped_evaluate_refused (h : ¬g.accepts bundle) :
    (g.recapped caps streaks).evaluate bundle =
      ((g.evaluate bundle).1, (g.evaluate bundle).2.recapped caps streaks) := by
  cases hb : g.bindingRefusal bundle with
  | some denial =>
    unfold evaluate
    rw [recapped_bindingRefusal, hb]
    exact g.recapped_refuse caps streaks _ denial.1 denial.2
  | none =>
    have hcheck : (g.authorityCheck bundle).reason ≠ .none := fun hnone => h ⟨hb, hnone⟩
    have hcheck' : ((g.recapped caps streaks).authorityCheck bundle).reason ≠ .none := hcheck
    unfold evaluate
    rw [recapped_bindingRefusal, hb]
    simp only
    rw [if_pos hcheck, if_pos hcheck']
    exact g.recapped_refuse caps streaks _ _ _

section Dwell

variable {g caps streaks} (h : g.SameDwell streaks)

include h

theorem recapped_windowClassification :
    (g.recapped caps streaks).windowClassification bundle = g.windowClassification bundle := by
  have hclassified :
      (g.recapped caps streaks).classified bundle = g.classified bundle :=
    classify_withCaps caps.1 caps.2 rfl h
  rw [windowClassification_eq, windowClassification_eq, hclassified]
  rfl

theorem recapped_classifiedDecision :
    (g.recapped caps streaks).classifiedDecision bundle = g.classifiedDecision bundle := by
  unfold classifiedDecision
  rw [recapped_boundDecision, recapped_windowClassification bundle h]
  rfl

theorem recapped_trackedRecovery (cleanStreak other : UInt32) :
    (g.recapped caps streaks).trackedRecovery bundle other =
      { g.trackedRecovery bundle cleanStreak with cleanWindows := other } := by
  unfold trackedRecovery
  rw [recapped_windowClassification bundle h]
  rfl

theorem recapped_countedState :
    (g.recapped caps streaks).countedState bundle =
      (g.countedState bundle).withStreaks
        (streaks.next (g.config.policy.withCaps caps.1 caps.2).hysteresis
          (g.windowClassification bundle).instantaneousKind (g.liveView).isSome) := by
  unfold countedState Streaks.next
  rw [recapped_windowClassification bundle h, recapped_liveView]
  by_cases hkind : (g.windowClassification bundle).instantaneousKind.incident
  · simp only [if_pos hkind]
    rfl
  · simp only [if_neg hkind]
    rw [recapped_trackedRecovery bundle h
      (min ((g.acceptEvidence bundle).cleanStreak + 1) g.config.policy.hysteresis.maxCleanWindows)]
    cases g.liveView <;> rfl

theorem recapped_synthesis :
    (g.recapped caps streaks).synthesis bundle = g.synthesis bundle := by
  have hstep : ((g.recapped caps streaks).recoveryVerdict bundle).stepBp =
      (g.recoveryVerdict bundle).stepBp := by
    have hzero : ∀ g : Governor, (g.recoveryVerdict bundle).stepBp = {} := fun g =>
      (recoveryVerdict_stepBp g bundle).elim id fun hs => hs
    rw [hzero, hzero]
  have hrequest : (g.recapped caps streaks).synthesisRequest bundle =
      { g.synthesisRequest bundle with
        policy := some (g.config.policy.withCaps caps.1 caps.2)
        recoveryRelaxationPermitted :=
          ((g.recapped caps streaks).recoveryVerdict bundle).relax } := by
    unfold synthesisRequest
    rw [recapped_windowClassification bundle h, hstep]
    rfl
  unfold synthesis
  rw [hrequest]
  exact synthesizeWindow_withCaps caps.1 caps.2 (g.synthesisRequest bundle) _ _ _

theorem recapped_effect : (g.recapped caps streaks).effect bundle = g.effect bundle := by
  have hsynthesized :
      (g.recapped caps streaks).synthesizedEffect bundle = g.synthesizedEffect bundle := by
    unfold synthesizedEffect
    rw [recapped_windowClassification bundle h, recapped_synthesis bundle h, recapped_liveRecord]
    rfl
  unfold effect
  rw [recapped_liveRecord, recapped_windowClassification bundle h, hsynthesized]
  rfl

theorem recapped_effectDecision (effect : Effect) :
    (g.recapped caps streaks).effectDecision bundle effect = g.effectDecision bundle effect := by
  have hsynthesized :
      (g.recapped caps streaks).synthesizedDecision bundle = g.synthesizedDecision bundle := by
    unfold synthesizedDecision
    rw [recapped_classifiedDecision bundle h, recapped_synthesis bundle h, recapped_authorityCheck]
    rfl
  have hheld : ∀ record,
      (g.recapped caps streaks).heldDecision bundle record = g.heldDecision bundle record := by
    intro record
    unfold heldDecision
    rw [recapped_classifiedDecision bundle h, recapped_authorityCheck]
    rfl
  cases effect <;> simp only [effectDecision, hsynthesized, hheld, recapped_synthesis bundle h]

theorem recapped_commitState (state : GovernorState) (next : Streaks) :
    (g.recapped caps streaks).commitState bundle (state.withStreaks next) =
      (g.commitState bundle state).withStreaks next := by
  have hrecord : (g.recapped caps streaks).windowRecord bundle = g.windowRecord bundle := by
    unfold windowRecord
    rw [recapped_windowClassification bundle h]
  unfold commitState
  rw [hrecord]
  rfl

theorem recapped_effectState (effect : Effect) :
    (g.recapped caps streaks).effectState bundle effect =
      (g.effectState bundle effect).withStreaks
        (streaks.next (g.config.policy.withCaps caps.1 caps.2).hysteresis
          (g.windowClassification bundle).instantaneousKind (g.liveView).isSome) := by
  have hcounted : (g.recapped caps streaks).countedState bundle = _ :=
    recapped_countedState bundle h
  cases effect with
  | noAction live =>
    cases live
    · exact hcounted
    · simp only [effectState, hcounted]
      rfl
  | _ =>
    simp only [effectState, hcounted]
    rfl

/-- An accepted window of the two governors: one decision, and states that differ in the
streaks again. -/
theorem recapped_evaluate (haccepts : g.accepts bundle) :
    (g.recapped caps streaks).evaluate bundle =
      ((g.evaluate bundle).1, (g.evaluate bundle).2.recapped caps
        (streaks.next (g.config.policy.withCaps caps.1 caps.2).hysteresis
          (g.windowClassification bundle).instantaneousKind (g.liveView).isSome)) := by
  have haccepts' : (g.recapped caps streaks).accepts bundle := haccepts
  cases hf : g.liveFence bundle with
  | none =>
    rw [evaluate_committed haccepts hf, evaluate_committed haccepts' hf, recapped_effect bundle h]
    unfold commit
    rw [recapped_effectState bundle h, recapped_commitState bundle h, recapped_effectDecision bundle h,
      recapped_windowClassification bundle h]
    rfl
  | some denial =>
    cases hv : g.liveView with
    | none =>
      unfold liveFence at hf
      rw [hv] at hf
      cases hf
    | some view =>
      rw [evaluate_fenced haccepts hv hf, evaluate_fenced haccepts' hv hf]
      unfold fence
      have hcounted : (g.recapped caps streaks).countedState bundle = _ :=
        recapped_countedState bundle h
      rw [hcounted, recapped_classifiedDecision bundle h, hv]
      rfl

end Dwell

end Governor

/-! ### Caps that answer the dwell alike -/

/-- A count of windows that is short of the dwell. -/
def short (minDwell count : UInt32) : Prop := count.toNat + 1 < minDwell.toNat

/-- A count of windows that meets the dwell, its successor within 32 bits. -/
def within (minDwell count : UInt32) : Prop :=
  minDwell.toNat ≤ count.toNat + 1 ∧ count.toNat + 1 < 2 ^ 32

instance (minDwell count : UInt32) : Decidable (short minDwell count) := by
  delta short; infer_instance

instance (minDwell count : UInt32) : Decidable (within minDwell count) := by
  delta within; infer_instance

/-- Two caps of the clean streak that a dwell cannot tell apart. -/
def capsAgree (minDwell a b : UInt32) : Prop :=
  a = b ∨ (short minDwell a ∧ short minDwell b) ∨ (within minDwell a ∧ within minDwell b)

instance (minDwell a b : UInt32) : Decidable (capsAgree minDwell a b) := by
  delta capsAgree; infer_instance

/-- Two streaks under such caps: equal, or both on the side of their caps. -/
def streaksAgree (minDwell a b s t : UInt32) : Prop :=
  s = t ∨ (short minDwell a ∧ short minDwell b ∧ short minDwell s ∧ short minDwell t) ∨
    (within minDwell a ∧ within minDwell b ∧ within minDwell s ∧ within minDwell t)

section Agreement

variable {minDwell a b s t : UInt32}

theorem not_dwell_of_short (h : short minDwell s) : ¬s + 1 ≥ minDwell := by
  intro hmet
  rw [ge_iff_le, UInt32.le_iff_toNat_le, UInt32.toNat_add, UInt32.toNat_one] at hmet
  have hlow := Nat.mod_le (s.toNat + 1) (2 ^ 32)
  unfold short at h
  omega

theorem succ_of_within (h : within minDwell s) : (s + 1).toNat = s.toNat + 1 := by
  rw [UInt32.toNat_add, UInt32.toNat_one]
  exact Nat.mod_eq_of_lt h.2

theorem dwell_of_within (h : within minDwell s) : s + 1 ≥ minDwell := by
  rw [ge_iff_le, UInt32.le_iff_toNat_le, succ_of_within h]
  exact h.1

theorem streaksAgree.dwell (h : streaksAgree minDwell a b s t) :
    t + 1 ≥ minDwell ↔ s + 1 ≥ minDwell := by
  rcases h with rfl | ⟨-, -, hs, ht⟩ | ⟨-, -, hs, ht⟩
  · exact Iff.rfl
  · exact iff_of_false (not_dwell_of_short ht) (not_dwell_of_short hs)
  · exact iff_of_true (dwell_of_within ht) (dwell_of_within hs)

theorem short_of_le (h : short minDwell a) (hle : s ≤ a) : short minDwell s := by
  rw [UInt32.le_iff_toNat_le] at hle
  unfold short at h ⊢
  omega

theorem min_within (h : within minDwell s) (ha : within minDwell a) :
    within minDwell (min (s + 1) a) := by
  rw [UInt32.min_def]
  split_ifs with hle
  · rw [UInt32.le_iff_toNat_le, succ_of_within h] at hle
    unfold within at h ha ⊢
    rw [succ_of_within h]
    omega
  · exact ha

/-- Where the caps part two equal counts, both meet the dwell. -/
theorem min_eq_or_within (ha : within minDwell a) (hb : within minDwell b) (count : UInt32) :
    min count a = min count b ∨ (within minDwell (min count a) ∧ within minDwell (min count b)) := by
  have hover : ∀ {a b : UInt32}, within minDwell a → within minDwell b → ¬count ≤ a →
      within minDwell (min count b) := by
    intro a b ha hb hle
    rw [UInt32.min_def]
    split_ifs with hb'
    · rw [UInt32.le_iff_toNat_le] at hle hb'
      unfold within at ha hb ⊢
      omega
    · exact hb
  by_cases hca : count ≤ a
  · by_cases hcb : count ≤ b
    · rw [UInt32.min_def, UInt32.min_def, if_pos hca, if_pos hcb]
      exact .inl rfl
    · exact .inr ⟨hover hb ha hcb, hover hb hb hcb⟩
  · exact .inr ⟨hover ha ha hca, hover ha hb hca⟩

/-- A window leaves the streaks in agreement. -/
theorem streaksAgree.next {hysteresis other : HysteresisPolicy}
    (hcaps : capsAgree minDwell hysteresis.maxCleanWindows other.maxCleanWindows)
    (h : streaksAgree minDwell hysteresis.maxCleanWindows other.maxCleanWindows s t)
    (kind : IncidentKind) :
    streaksAgree minDwell hysteresis.maxCleanWindows other.maxCleanWindows
      (nextStreak hysteresis s kind) (nextStreak other t kind) := by
  by_cases hkind : kind.incident
  · unfold nextStreak
    rw [if_pos hkind, if_pos hkind]
    exact .inl rfl
  rcases h with rfl | ⟨ha, hb, -, -⟩ | ⟨ha, hb, hs, ht⟩
  · rcases hcaps with hcaps | ⟨ha, hb⟩ | ⟨ha, hb⟩
    · unfold nextStreak
      rw [hcaps]
      exact .inl rfl
    · exact .inr (.inl ⟨ha, hb, short_of_le ha (nextStreak_le kind),
        short_of_le hb (nextStreak_le kind)⟩)
    · unfold nextStreak
      rw [if_neg hkind, if_neg hkind]
      rcases min_eq_or_within ha hb (s + 1) with heq | ⟨hs, ht⟩
      · exact .inl heq
      · exact .inr (.inr ⟨ha, hb, hs, ht⟩)
  · exact .inr (.inl ⟨ha, hb, short_of_le ha (nextStreak_le kind),
      short_of_le hb (nextStreak_le kind)⟩)
  · unfold nextStreak
    rw [if_neg hkind, if_neg hkind]
    exact .inr (.inr ⟨ha, hb, min_within hs ha, min_within ht hb⟩)

end Agreement

end IncastGovernor
