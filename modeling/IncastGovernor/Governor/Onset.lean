import IncastGovernor.Governor.Steps

/-! The onset of an intervention. An issue, and a move from Revalidating to Active, act
on the effective kind of the window, which hysteresis may hold at an incident over
evidence that shows none. Onset rests on the window's own evidence exactly when no
held incident kind finds the table without an Active or Relaxing record. -/

namespace IncastGovernor

namespace Governor

variable {g : Governor} {bundle : EvidenceBundle}

/-- The window's own evidence demonstrates an incident. -/
def demonstratesIncident (classification : Classification) : Prop :=
  classification.instantaneousKind.incident ∧ classification.synchronization.synchronized = true

/-- Some record moves from Revalidating to Active. -/
def reactivates (before after : List Intervention) : Prop :=
  ∃ (i : ℕ) (source target : Intervention), before[i]? = some source ∧
    source.state = .revalidating ∧ after[i]? = some target ∧ target.state = .active

/-- An issue or a reactivation rests on the window's own evidence. -/
def onsetDemonstrated (g : Governor) (bundle : EvidenceBundle) : Prop :=
  (g.evaluate bundle).1.outcome = .interventionIssued ∨
      reactivates g.state.interventions (g.evaluate bundle).2.state.interventions →
    demonstratesIncident (g.windowClassification bundle)

/-- Hysteresis holds an incident kind over a window that shows none, an action is
available, and the table has no live record or only one under revalidation. -/
def actsOnHeldIncident (g : Governor) (bundle : EvidenceBundle) : Prop :=
  g.accepts bundle ∧ g.liveFence bundle = none ∧
    (g.windowClassification bundle).kind.incident ∧
    ¬(g.windowClassification bundle).instantaneousKind.incident ∧
    actionAvailable bundle g.config.policy (g.windowClassification bundle) ∧
    ∀ view, g.liveView = some view → view.live.state = .revalidating

theorem demonstrates_of_incident (h : g.accepts bundle)
    (hi : (g.windowClassification bundle).instantaneousKind.incident) :
    demonstratesIncident (g.windowClassification bundle) := by
  refine ⟨hi, ?_⟩
  rw [windowClassification_instantaneousKind h] at hi
  exact classifyInstantaneous_incident hi

/-! ### The states the effects leave at the live position -/

theorem continuedRecord_state (now : Timestamp) (intent : MitigationIntent) {live : Intervention}
    (h : live.state = .revalidating) : (continuedRecord now intent live).state = .active := by
  simp only [continuedRecord, reactivatedRecord, if_pos h]

theorem relaxedRecord_state (now : Timestamp) (intent : MitigationIntent) {live : Intervention}
    (h : live.state = .revalidating) : (relaxedRecord now intent live).state = .revalidating := by
  have hne : live.state ≠ .active := by simp [h]
  simp only [relaxedRecord, if_neg hne]
  exact h

/-- A table that differs from another at most at the live position reactivates exactly
there. -/
theorem reactivates_put_iff {view : LiveView} (hv : g.liveView = some view)
    (record : Intervention) :
    reactivates g.state.interventions (view.put record) ↔
      view.live.state = .revalidating ∧ record.state = .active := by
  constructor
  · rintro ⟨i, source, target, hs, hsr, ht, hta⟩
    rw [getElem?_put hv] at ht
    split_ifs at ht with hi
    · rw [hi, getElem?_live hv] at hs
      rw [Option.some.inj hs, Option.some.inj ht]
      exact ⟨hsr, hta⟩
    · rw [hs] at ht
      rw [Option.some.inj ht, hta] at hsr
      contradiction
  · rintro ⟨hs, hr⟩
    refine ⟨view.before.length, view.live, record, getElem?_live hv, hs, ?_, hr⟩
    rw [getElem?_put hv, if_pos rfl]

/-- So does a bounded table that is trimmed behind it. -/
theorem reactivates_putLive_iff (hinv : tableBounded g) {view : LiveView}
    (hv : g.liveView = some view) (record : Intervention) :
    reactivates g.state.interventions (trimInterventions (g.putLive record)) ↔
      view.live.state = .revalidating ∧ record.state = .active := by
  rw [trim_putLive hinv hv, reactivates_put_iff hv]

theorem not_reactivates_self (table : List Intervention) : ¬reactivates table table := by
  rintro ⟨i, source, target, hs, hsr, ht, hta⟩
  rw [hs] at ht
  rw [Option.some.inj ht, hta] at hsr
  contradiction

/-- Without a live record nothing is under revalidation. -/
theorem not_reactivates_of_dead (hv : g.liveView = none) (after : List Intervention) :
    ¬reactivates g.state.interventions after := by
  rintro ⟨i, source, target, hs, hsr, _, _⟩
  have hmem : source ∈ g.state.interventions := List.mem_of_getElem? hs
  have hdead := findLive_eq_none.mp hv source hmem
  exact hdead (by simp [Intervention.live, InterventionState.live, hsr])

/-! ### Issues and reactivations -/

/-- An issue needs an empty live position and an incident to act on. -/
theorem issued_iff :
    (g.evaluate bundle).1.outcome = .interventionIssued ↔
      g.accepts bundle ∧ g.liveFence bundle = none ∧ g.liveView = none ∧
        g.actsOnIncident bundle := by
  rcases evaluate_cases g bundle with ⟨hn, decision, reason, detail, he⟩ |
    ⟨_, view, denial, _, hf, he⟩ | ⟨h, hf, he⟩
  · simp [he, hn]
  · simp [he, hf]
  · rw [he, commit_outcome, ← liveRecord_eq_none hf]
    have hby := effect_by g bundle
    generalize g.effect bundle = effect at hby
    cases hby with
    | issue hl ha => simp [effectDecision, h, hf, hl, ha]
    | idle hl ha => simp [effectDecision, ha]
    | hold live hl hh => simp [effectDecision, heldDecision, hl]
    | carryOn live hl hh ha => simp [effectDecision, hl]
    | recover live hl hk ha hi => simp [effectDecision, hl]
    | relax live hl hk ha hi => simp [effectDecision, hl]
    | retireUnfounded live hl hk hn hs => simp [effectDecision, hl]
    | keep live hl _ ha hr => simp [effectDecision, hl]

/-- A committed window reactivates a live record under revalidation that it acts on. -/
theorem reactivates_effect_iff (hinv : tableBounded g) (hf : g.liveFence bundle = none)
    {view : LiveView} (hv : g.liveView = some view) :
    reactivates g.state.interventions
        (trimInterventions (g.effectState bundle (g.effect bundle)).interventions) ↔
      view.live.state = .revalidating ∧ g.actsOnIncident bundle := by
  have hl := liveRecord_of_view hf hv
  have hput := reactivates_putLive_iff hinv hv
  rw [effectState_interventions]
  have hby := effect_by g bundle
  generalize g.effect bundle = effect at hby
  cases hby with
  | issue hl' _ | idle hl' _ =>
    rw [hl] at hl'
    contradiction
  | carryOn live hl' hh ha =>
    obtain rfl := Option.some.inj (hl.symm.trans hl')
    refine (hput _).trans ⟨fun hr => ⟨hr.1, ha⟩, fun hr => ⟨hr.1, ?_⟩⟩
    exact continuedRecord_state _ _ hr.1
  | hold live hl' hh =>
    obtain rfl := Option.some.inj (hl.symm.trans hl')
    -- a held record is active or relaxing, not under revalidation
    have hstate : view.live.state ≠ .revalidating := by
      intro hs
      have hactive := hh.2.2.2
      rw [hs] at hactive
      simp at hactive
    exact (hput _).trans (iff_of_false (fun hr => hstate hr.1) fun hr => hstate hr.1)
  | recover live hl' hk ha hi =>
    refine (hput _).trans (iff_of_false ?_ fun hr => not_actsOnIncident_of_recovery hk hr.2)
    simp [recoveredRecord]
  | relax live hl' hk ha hi =>
    obtain rfl := Option.some.inj (hl.symm.trans hl')
    refine (hput _).trans (iff_of_false (fun hr => ?_) fun hr =>
      not_actsOnIncident_of_recovery hk hr.2)
    rw [relaxedRecord_state _ _ hr.1] at hr
    cases hr.2
  | retireUnfounded live hl' hk hn hs =>
    refine (hput _).trans (iff_of_false ?_ fun hr => hn hr.2.1)
    simp [unfoundedRecord]
  | keep live hl' _ ha hr =>
    obtain rfl := Option.some.inj (hl.symm.trans hl')
    refine (hput _).trans (iff_of_false (fun hr => ?_) fun hr => ha hr.2)
    rw [hr.1] at hr
    cases hr.2

/-- A reactivation needs an unfenced record under revalidation and an incident to act on. -/
theorem reactivates_iff (hinv : tableBounded g) :
    reactivates g.state.interventions (g.evaluate bundle).2.state.interventions ↔
      g.accepts bundle ∧ g.liveFence bundle = none ∧
        (∃ view, g.liveView = some view ∧ view.live.state = .revalidating) ∧
        g.actsOnIncident bundle := by
  rcases evaluate_cases g bundle with ⟨hn, decision, reason, detail, he⟩ |
    ⟨_, view, denial, hv, hf, he⟩ | ⟨h, hf, he⟩
  · rw [he, refuse_interventions]
    exact ⟨fun hr => absurd hr (not_reactivates_self _), fun hc => absurd hc.1 hn⟩
  · rw [he]
    constructor
    · intro hr
      have hs := ((reactivates_put_iff hv _).mp hr).2
      rw [fencedRecord_state] at hs
      contradiction
    · rintro ⟨_, hf', _⟩
      rw [hf] at hf'
      contradiction
  · rw [he, commit_interventions]
    cases hv : g.liveView with
    | none =>
      refine ⟨fun hr => absurd hr (not_reactivates_of_dead hv _), ?_⟩
      rintro ⟨_, _, ⟨view, hview, _⟩, _⟩
      contradiction
    | some view =>
      rw [reactivates_effect_iff hinv hf hv]
      constructor
      · exact fun hr => ⟨h, hf, ⟨view, rfl, hr.1⟩, hr.2⟩
      · rintro ⟨-, -, ⟨other, ho, hs⟩, ha⟩
        obtain rfl := Option.some.inj ho
        exact ⟨hs, ha⟩

/-- One evaluation demonstrates its onset exactly when it does not act on a held
incident. -/
theorem onsetDemonstrated_iff (hinv : tableBounded g) :
    g.onsetDemonstrated bundle ↔ ¬g.actsOnHeldIncident bundle := by
  unfold onsetDemonstrated
  rw [issued_iff, reactivates_iff hinv]
  constructor
  · rintro hdem ⟨h, hf, hk, hcalm, hact, hlive⟩
    have ha := (actsOnIncident_iff h).mpr ⟨hk, hact⟩
    apply hcalm
    cases hv : g.liveView with
    | none => exact (hdem (Or.inl ⟨h, hf, hv, ha⟩)).1
    | some view => exact (hdem (Or.inr ⟨h, hf, ⟨view, hv, hlive view hv⟩, ha⟩)).1
  · intro hnot honset
    have hcase : g.accepts bundle ∧ g.liveFence bundle = none ∧ g.actsOnIncident bundle ∧
        ∀ view, g.liveView = some view → view.live.state = .revalidating := by
      rcases honset with ⟨h, hf, hv, ha⟩ | ⟨h, hf, ⟨view, hv, hs⟩, ha⟩
      · refine ⟨h, hf, ha, fun view hview => ?_⟩
        rw [hv] at hview
        contradiction
      · refine ⟨h, hf, ha, fun other ho => ?_⟩
        rw [hv] at ho
        rwa [← Option.some.inj ho]
    obtain ⟨h, hf, ha, hlive⟩ := hcase
    apply demonstrates_of_incident h
    by_contra hcalm
    have hk := (actsOnIncident_iff h).mp ha
    exact hnot ⟨h, hf, hk.1, hcalm, hk.2, hlive⟩

/-- Over a run: every evaluation demonstrates its onset exactly when none of them acts
on a held incident. -/
theorem run_onset_demonstrated_iff (config : GovernorConfig) (operations : List Operation) :
    (∀ call ∈ calls config operations, ∀ bundle, call.2 = .evaluate bundle →
        call.1.onsetDemonstrated bundle) ↔
      ∀ call ∈ calls config operations, ∀ bundle, call.2 = .evaluate bundle →
        ¬call.1.actsOnHeldIncident bundle := by
  constructor
  · intro h call hcall bundle hb
    exact (onsetDemonstrated_iff (tableBounded_of_mem_calls hcall)).mp (h call hcall bundle hb)
  · intro h call hcall bundle hb
    exact (onsetDemonstrated_iff (tableBounded_of_mem_calls hcall)).mpr (h call hcall bundle hb)

/-- An incident, the retirement of its intervention, and a calm window: the last recorded
kind is still an incident and hysteresis holds it. -/
def retiredIncidentRun : List Operation :=
  [.evaluate incidentWindow, .retire ⟨1⟩ ⟨1500000000⟩ [], .evaluate (calmWindow 2 2000000000)]

/-- The governor the calm window of that run meets. -/
def afterRetirement : Governor :=
  Foundation.run step (create sampleConfig)
    [.evaluate incidentWindow, .retire ⟨1⟩ ⟨1500000000⟩ []]

/-- The calm window of that run issues an intervention. -/
theorem retiredIncidentRun_issues_from_calm_window :
    sampleConfig.policy.validate = .ok () ∧
      ¬∀ call ∈ calls sampleConfig retiredIncidentRun, ∀ bundle, call.2 = .evaluate bundle →
        call.1.onsetDemonstrated bundle := by
  refine ⟨by decide +kernel, fun h => ?_⟩
  have hmem : (afterRetirement, Operation.evaluate (calmWindow 2 2000000000)) ∈
      calls sampleConfig retiredIncidentRun :=
    (Foundation.mem_calls_iff step).mpr
      ⟨[.evaluate incidentWindow, .retire ⟨1⟩ ⟨1500000000⟩ []], [], rfl, rfl⟩
  have hissued :
      (afterRetirement.evaluate (calmWindow 2 2000000000)).1.outcome = .interventionIssued := by
    decide +kernel
  have hcalm :
      ¬(afterRetirement.windowClassification
        (calmWindow 2 2000000000)).instantaneousKind.incident := by
    decide +kernel
  have honset : afterRetirement.onsetDemonstrated (calmWindow 2 2000000000) := h _ hmem _ rfl
  exact hcalm (honset (Or.inl hissued)).1

end Governor

end IncastGovernor
