import IncastGovernor.Detect.Authority

/-! The evidence model's own word on a stamp, beside the authority check's. The two part
over a stamp that names no window: the model refuses it, the check takes it for every
window. -/

namespace IncastGovernor

def EvidenceStamp.authoritativeAt (stamp : EvidenceStamp) (now : Timestamp)
    (expectedWindow : WindowId) : Bool :=
  if stamp.state ≠ .present then false
  else if expectedWindow.valid ∧ stamp.window ≠ expectedWindow then false
  else if ¬stamp.observedAt.valid then false
  else if now.valid ∧ stamp.observedAt > now then false
  else if stamp.validUntil.valid ∧ (¬now.valid ∨ now > stamp.validUntil) then false
  else true

/-- A refusal of a chain of refusals is one that was not made. -/
theorem refusal_passed {c : Prop} [Decidable c] {later : Bool} :
    (if c then false else later) = true ↔ ¬c ∧ later = true := by
  by_cases hc : c <;> simp [hc]

theorem EvidenceStamp.authoritativeAt_iff {stamp : EvidenceStamp} {now : Timestamp}
    {expectedWindow : WindowId} :
    stamp.authoritativeAt now expectedWindow = true ↔
      stamp.state = .present ∧ (expectedWindow.valid → stamp.window = expectedWindow) ∧
        stamp.observedAt.valid ∧ ¬(now.valid ∧ stamp.observedAt > now) ∧
          ¬(stamp.validUntil.valid ∧ (¬now.valid ∨ now > stamp.validUntil)) := by
  unfold EvidenceStamp.authoritativeAt
  rw [refusal_passed, refusal_passed, refusal_passed, refusal_passed, refusal_passed, not_not,
    not_and, not_not, not_not]
  simp only [and_true]

/-- A class is reported as present when the policy is enabled, the bundle well formed and the
class assessed so. -/
theorem checkAuthority_present_iff {bundle : EvidenceBundle} {policy : GovernorPolicy}
    {last : PerClass UInt64} {klass : EvidenceClass} :
    (checkAuthority bundle policy last).classes.get klass = .present ↔
      policy.enabled = true ∧ bundle.structurallyValid ∧
        (assessStamp bundle policy last klass).1 = .present := by
  have hnone : (PerClass.ofFn fun _ => EvidenceState.unknown).get klass ≠ .present := by
    rw [PerClass.get_ofFn]
    exact EvidenceState.noConfusion
  unfold checkAuthority
  by_cases he : policy.enabled = true
  · by_cases hs : bundle.structurallyValid
    · rw [if_neg (not_not.mpr he), if_neg (not_not.mpr hs)]
      have hget : (PerClass.ofFn fun klass => (assessStamp bundle policy last klass).1).get klass =
          (assessStamp bundle policy last klass).1 := PerClass.get_ofFn _ klass
      simp only [he, hs, true_and]
      -- whatever is denied behind them, the classes are the assessments
      split
      · rw [hget]
      · split_ifs
        · rw [hget]
        · split <;> rw [hget]
    · rw [if_neg (not_not.mpr he), if_pos hs]
      exact ⟨fun h => absurd h hnone, fun h => absurd h.2.1 hs⟩
  · rw [if_pos he]
    exact ⟨fun h => absurd h hnone, fun h => absurd h.1 he⟩

/-- A stamp the check takes for every window: it names none, and meets all other demands. -/
structure WindowlessStamp (bundle : EvidenceBundle) (policy : GovernorPolicy)
    (last : PerClass UInt64) (klass : EvidenceClass) : Prop where
  windowless : ¬(bundle.stampFor klass).window.valid
  stamp : StampPresent bundle policy last klass
  capacity : ¬(klass = .capacity ∧ ¬bundle.capacity.serviceRate.positive)
  provenance : ¬(klass = .provenance ∧ (¬(bundle.stampFor klass).provenance.valid ∨
    ¬(bundle.stampFor klass).provenanceGeneration.valid))

/-- Evidence the check finds present is authoritative when its stamp names a window. -/
theorem StampPresent.authoritativeAt_iff {bundle : EvidenceBundle} {policy : GovernorPolicy}
    {last : PerClass UInt64} {klass : EvidenceClass} (h : StampPresent bundle policy last klass)
    (hnow : bundle.now.valid) (hwindow : bundle.window.valid) :
    (bundle.stampFor klass).authoritativeAt bundle.now bundle.window = true ↔
      (bundle.stampFor klass).window.valid := by
  rw [EvidenceStamp.authoritativeAt_iff]
  constructor
  · intro hauth
    rw [hauth.2.1 hwindow]
    exact hwindow
  · intro hnamed
    refine ⟨h.state, fun _ => h.window hnamed hwindow, h.observed, fun hf => h.notFuture hf.1 hf.2,
      fun hv => ?_⟩
    rcases hv.2 with hzero | hlate
    · exact hzero hnow
    · exact h.inValidity hv.1 hnow hlate

/-- The check reports nothing as present that the evidence model refuses, exactly when no stamp
it takes is without a window. -/
theorem checkAuthority_present_authoritative_iff (bundle : EvidenceBundle)
    (policy : GovernorPolicy) (last : PerClass UInt64) (hnow : bundle.now.valid)
    (hwindow : bundle.window.valid) :
    (∀ klass, (checkAuthority bundle policy last).classes.get klass = .present →
        (bundle.stampFor klass).authoritativeAt bundle.now bundle.window = true) ↔
      (policy.enabled = true → bundle.structurallyValid →
        ∀ klass, ¬WindowlessStamp bundle policy last klass) := by
  constructor
  · intro h he hs klass hless
    have hpresent : (assessStamp bundle policy last klass).1 = .present :=
      assessStamp_present_iff.mpr ⟨hless.stamp, hless.capacity, hless.provenance⟩
    have hauth := h klass (checkAuthority_present_iff.mpr ⟨he, hs, hpresent⟩)
    exact hless.windowless ((hless.stamp.authoritativeAt_iff hnow hwindow).mp hauth)
  · intro h klass hpresent
    obtain ⟨he, hs, hassessed⟩ := checkAuthority_present_iff.mp hpresent
    obtain ⟨hstamp, hcapacity, hprovenance⟩ := assessStamp_present_iff.mp hassessed
    rw [hstamp.authoritativeAt_iff hnow hwindow]
    by_contra hless
    exact h he hs klass ⟨hless, hstamp, hcapacity, hprovenance⟩

/-- The sample window with a window named in no stamp. -/
def windowlessBundle : EvidenceBundle :=
  let bundle := sampleBundle 7 100 [sampleRow 1 600, sampleRow 2 900]
  { bundle with
    fanInStamp := sampleStamp .fanIn {} ⟨100⟩
    capacityStamp := sampleStamp .capacity {} ⟨100⟩
    queueStamp := sampleStamp .queue {} ⟨100⟩
    timingStamp := sampleStamp .arrivalTiming {} ⟨100⟩
    rateStamp := sampleStamp .aggregateRate {} ⟨100⟩
    provenanceStamp := sampleStamp .provenance {} ⟨100⟩ }

/-- Every class is taken, and authority is granted on them. -/
theorem checkAuthority_windowless :
    windowlessBundle.now.valid ∧ windowlessBundle.window.valid ∧
      (checkAuthority windowlessBundle samplePolicy noSequences).reason = .none ∧
      (checkAuthority windowlessBundle samplePolicy noSequences).classes.get .fanIn = .present ∧
      (windowlessBundle.stampFor .fanIn).authoritativeAt windowlessBundle.now
        windowlessBundle.window = false := by
  decide +kernel

theorem checkAuthority_present_authoritative_iff_sample :
    let bundle := sampleBundle 7 100 [sampleRow 1 600, sampleRow 2 900]
    ∀ klass, (checkAuthority bundle samplePolicy noSequences).classes.get klass = .present →
      (bundle.stampFor klass).authoritativeAt bundle.now bundle.window = true := by
  refine (checkAuthority_present_authoritative_iff _ _ _ (by decide) (by decide)).mpr ?_
  -- each stamp that is present names the window, and the others are not present
  rintro - - klass ⟨hwindowless, hstamp, -, -⟩
  cases klass <;> first | exact hwindowless (by decide) | exact absurd hstamp.state (by decide)

end IncastGovernor
