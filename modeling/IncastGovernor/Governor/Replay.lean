import IncastGovernor.Governor.Refusals
import IncastGovernor.Governor.Soundness
import IncastGovernor.Governor.Steps

/-! Replays. An accepted window leaves a sequence of every class behind that is not below
its own, and as long as the governor serves one boot incarnation no recorded sequence goes
back. A window that a required class orders is therefore accepted once. -/

namespace IncastGovernor

namespace Governor

variable {g : Governor} {bundle : EvidenceBundle}

/-- The sequences of an incarnation are recorded up to a value. -/
structure Recorded (g : Governor) (boot : BootIncarnation) (klass : EvidenceClass)
    (sequence : UInt64) : Prop where
  boot : g.state.lastSequenceBoot = boot
  sequence : sequence ≤ g.state.lastSequence.get klass

/-! ### One evaluation -/

theorem recorded_of_accepts (h : g.accepts bundle) (klass : EvidenceClass) :
    Recorded (g.evaluate bundle).2 g.config.boot klass (bundle.stampFor klass).sequence := by
  obtain ⟨hsequence, hboot⟩ := evaluate_sequences h
  refine ⟨?_, ?_⟩
  · rw [hboot, acceptEvidence_boot]
    exact (bindingGranted_of_accepts h).boot
  · rw [hsequence]
    exact (acceptEvidence_sequence_ge g bundle klass).1

/-- A bundle of the recorded incarnation is checked against the recorded sequences. -/
theorem referenceSequences_of_boot (h : g.accepts bundle)
    (hb : g.state.lastSequenceBoot = g.config.boot) :
    g.referenceSequences bundle = g.state.lastSequence := by
  have hbinding := bindingGranted_of_accepts h
  have hsame : g.sameSourceIncarnation bundle := by
    refine ⟨?_, ?_, hb.trans hbinding.boot.symm⟩
    · rw [hb]
      exact hbinding.bound.2.1
    · rw [hbinding.boot]
      exact hbinding.bound.2.1
  exact if_pos hsame

theorem evaluate_recorded {klass : EvidenceClass} {sequence : UInt64}
    (hr : Recorded g g.config.boot klass sequence) (bundle : EvidenceBundle) :
    Recorded (g.evaluate bundle).2 g.config.boot klass sequence := by
  by_cases h : g.accepts bundle
  · refine ⟨(recorded_of_accepts h klass).boot, ?_⟩
    have hmono := (acceptEvidence_sequence_ge g bundle klass).2
    rw [referenceSequences_of_boot h hr.boot] at hmono
    rw [(evaluate_sequences h).1]
    exact UInt64.le_trans hr.sequence hmono
  · rw [g.evaluate_of_refused bundle ((g.outcome_refused_iff bundle).mpr h)]
    exact ⟨hr.boot, hr.sequence⟩

/-- A bundle that a required class orders at or before the recorded sequence is refused. -/
theorem not_accepts_of_recorded {klass : EvidenceClass}
    (hreq : g.config.policy.authority.requiredClasses.get klass = true)
    (hseq : (bundle.stampFor klass).sequence ≠ 0)
    (hr : Recorded g g.config.boot klass (bundle.stampFor klass).sequence) :
    ¬g.accepts bundle := by
  intro h
  have hpresent := assessStamp_present ((authorityGranted_of_accepts h).required klass hreq)
  have hnewer := hpresent.newer hseq
  rw [referenceSequences_of_boot h hr.boot] at hnewer
  refine hnewer (fun hzero => hseq ?_) hr.sequence
  have hle := hr.sequence
  rw [hzero] at hle
  exact UInt64.le_antisymm hle (UInt64.zero_le)

/-! ### Runs of one binding -/

/-- The operations that leave a boot incarnation and a policy in place, with the sequences
recorded under them. -/
def keepsBinding (boot : BootIncarnation) (policy : GovernorPolicy) : Operation → Prop
  | .evaluate _ | .retire _ _ _ | .shutdown _ => True
  | .configurePolicy replaced _ => replaced = policy
  | .bindAuthority _ bound _ _ _ => bound = boot
  | .restoreState _ | .reset => False

/-- The binding a recorded sequence counts under. -/
structure RecordedUnder (g : Governor) (boot : BootIncarnation) (policy : GovernorPolicy)
    (klass : EvidenceClass) (sequence : UInt64) : Prop where
  recorded : Recorded g boot klass sequence
  boot : g.config.boot = boot
  policy : g.config.policy = policy

theorem Recorded.of_sequences_eq {g' : Governor} {boot : BootIncarnation} {klass : EvidenceClass}
    {sequence : UInt64} (hr : Recorded g boot klass sequence)
    (hs : g'.state.lastSequence = g.state.lastSequence ∧
      g'.state.lastSequenceBoot = g.state.lastSequenceBoot) : Recorded g' boot klass sequence := by
  refine ⟨hs.2.trans hr.boot, ?_⟩
  rw [hs.1]
  exact hr.sequence

theorem recordedUnder_step {boot : BootIncarnation} {policy : GovernorPolicy}
    {klass : EvidenceClass} {sequence : UInt64} (operation : Operation)
    (hr : RecordedUnder g boot policy klass sequence) (hk : keepsBinding boot policy operation) :
    RecordedUnder (g.step operation) boot policy klass sequence := by
  obtain ⟨hrecorded, hboot, hpolicy⟩ := hr
  have hby := step_by g operation
  generalize g.step operation = after at hby ⊢
  cases hby with
  | evaluated bundle =>
    have hc := evaluate_config g bundle
    refine ⟨?_, (congrArg GovernorConfig.boot hc).trans hboot,
      (congrArg GovernorConfig.policy hc).trans hpolicy⟩
    subst hboot
    exact evaluate_recorded hrecorded bundle
  | policyKept | policyChanged => exact ⟨hrecorded.of_sequences_eq ⟨rfl, rfl⟩, hboot, hk⟩
  | bound => exact ⟨hrecorded.of_sequences_eq ⟨rfl, rfl⟩, hk, hpolicy⟩
  | restoreRefused | restored | reset => exact hk.elim
  | policyRefused | bindRefused | retireRefused | retired | stopped =>
    exact ⟨hrecorded.of_sequences_eq ⟨rfl, rfl⟩, hboot, hpolicy⟩

theorem recordedUnder_run {boot : BootIncarnation} {policy : GovernorPolicy}
    {klass : EvidenceClass} {sequence : UInt64} {operations : List Operation}
    (hr : RecordedUnder g boot policy klass sequence)
    (hk : ∀ operation ∈ operations, keepsBinding boot policy operation) :
    RecordedUnder (Foundation.run step g operations) boot policy klass sequence := by
  induction operations generalizing g with
  | nil => exact hr
  | cons operation rest ih =>
    have hs := recordedUnder_step operation hr (hk operation List.mem_cons_self)
    exact ih hs fun other hm => hk other (List.mem_cons_of_mem _ hm)

/-- What a replay leaves alone. -/
structure SameRecords (g g' : Governor) : Prop where
  interventions : g'.state.interventions = g.state.interventions
  history : g'.state.history = g.state.history
  incidentStreak : g'.state.incidentStreak = g.state.incidentStreak
  cleanStreak : g'.state.cleanStreak = g.state.cleanStreak
  lastSequence : g'.state.lastSequence = g.state.lastSequence
  lastSequenceBoot : g'.state.lastSequenceBoot = g.state.lastSequenceBoot

/-- A bundle that was not refused, with a sequence in a class its policy requires, is
refused whenever it comes again under the same boot incarnation and policy. -/
theorem replay_refused (g : Governor) (bundle : EvidenceBundle) (klass : EvidenceClass)
    (h : (g.evaluate bundle).1.outcome ≠ .refused)
    (hreq : g.config.policy.authority.requiredClasses.get klass = true)
    (hseq : (bundle.stampFor klass).sequence ≠ 0) (operations : List Operation)
    (hk : ∀ operation ∈ operations, keepsBinding g.config.boot g.config.policy operation) :
    let later := Foundation.run step (g.evaluate bundle).2 operations
    (later.evaluate bundle).1.outcome = .refused ∧
      SameRecords later (later.evaluate bundle).2 := by
  have haccepts : g.accepts bundle := by
    by_contra hn
    exact h ((g.outcome_refused_iff bundle).mpr hn)
  have hc := evaluate_config g bundle
  have hunder : RecordedUnder (g.evaluate bundle).2 g.config.boot g.config.policy klass
      (bundle.stampFor klass).sequence :=
    ⟨recorded_of_accepts haccepts klass, congrArg GovernorConfig.boot hc,
      congrArg GovernorConfig.policy hc⟩
  have hlater := recordedUnder_run hunder hk
  intro later
  have hrefused : ¬later.accepts bundle := by
    apply @not_accepts_of_recorded later bundle klass
    · rw [hlater.policy]
      exact hreq
    · exact hseq
    · rw [hlater.boot]
      exact hlater.recorded
  have houtcome := (later.outcome_refused_iff bundle).mpr hrefused
  refine ⟨houtcome, ?_⟩
  rw [later.evaluate_of_refused bundle houtcome]
  exact ⟨rfl, rfl, rfl, rfl, rfl, rfl⟩

/-- A window whose aggregate rate stamp carries a sequence. -/
def numberedWindow : EvidenceBundle :=
  { incidentWindow with rateStamp := { incidentWindow.rateStamp with sequence := 7 } }

/-- The window again, after another one and a retirement. -/
theorem replay_refused_numbered :
    let later := Foundation.run step ((create sampleConfig).evaluate numberedWindow).2
      [.evaluate (calmWindow 2 2000000000), .retire ⟨1⟩ ⟨3000000000⟩ []]
    (later.evaluate numberedWindow).1.outcome = .refused ∧
      SameRecords later (later.evaluate numberedWindow).2 := by
  refine replay_refused (create sampleConfig) numberedWindow .aggregateRate (by decide +kernel)
    rfl (by decide) _ fun operation hm => ?_
  rcases List.mem_cons.mp hm with rfl | hm
  · trivial
  · rw [List.mem_singleton.mp hm]
    trivial

end Governor

end IncastGovernor
