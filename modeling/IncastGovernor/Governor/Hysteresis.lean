import IncastGovernor.Governor.Representation

/-! Hysteresis. Below the recorded incident a window is held at its kind until the clean streak
meets the dwell, and a held window leaves the acting intervention as it is but for its expiry.
Only one live record acts at a time: the others wait for their revalidation. -/

namespace IncastGovernor

namespace Governor

variable {g : Governor} {bundle : EvidenceBundle}

/-! ### The kind of a window -/

/-- The kind of the last recorded window. -/
def recordedKind (g : Governor) : IncidentKind :=
  (g.state.history.getLast?.map fun record => record.kind).getD .unknown

/-- The clean streak with this window meets the dwell; the sum wraps at 32 bits. -/
def dwellMet (g : Governor) : Prop :=
  g.state.cleanStreak + 1 ≥ g.config.policy.hysteresis.minDwellWindows

instance (g : Governor) : Decidable g.dwellMet := by
  delta dwellMet; infer_instance

theorem rank_of_incident {kind : IncidentKind} (h : kind.incident) : 2 < kind.rank := by
  rcases h with rfl | rfl <;> decide

/-- The classification of an accepted window on the recorded kind. -/
theorem classified_kind (h : g.accepts bundle) :
    (g.classified bundle).kind =
        (applyHysteresis g.config.policy g.classificationContext
          (g.classified bundle).instantaneousKind).1 ∧
      (g.classified bundle).hysteresisHeld =
        (applyHysteresis g.config.policy g.classificationContext
          (g.classified bundle).instantaneousKind).2.1 :=
  classify_kind (authorityGranted_of_accepts h).withoutSequences

/-- Below the recorded incident a window is held at it until the dwell is met. -/
theorem held_of_unmet (h : g.accepts bundle) (hk : g.recordedKind.incident)
    (hrank : (g.windowClassification bundle).instantaneousKind.rank < g.recordedKind.rank)
    (hd : ¬g.dwellMet) :
    (g.windowClassification bundle).kind = g.recordedKind ∧
      (g.windowClassification bundle).hysteresisHeld = true := by
  rw [(windowClassification_fields g bundle).1] at hrank
  obtain ⟨hkind, hheld⟩ := classified_kind h
  have hpos := rank_of_incident hk
  have happly : applyHysteresis g.config.policy g.classificationContext
      (g.classified bundle).instantaneousKind =
        (g.recordedKind, true, [ascii "de-escalation held: minimum dwell not satisfied"]) := by
    unfold applyHysteresis
    rw [if_pos ⟨hrank, by show 0 < g.recordedKind.rank; omega⟩]
    exact if_pos hd
  rw [happly] at hkind hheld
  rw [windowClassification_eq, if_neg fun hc => hc.2.2.1 hheld]
  exact ⟨hkind, hheld⟩

/-- Once it is met the window falls below it. -/
theorem released_of_met (h : g.accepts bundle) (hk : g.recordedKind.incident)
    (hrank : (g.windowClassification bundle).instantaneousKind.rank < g.recordedKind.rank)
    (hd : g.dwellMet) : (g.windowClassification bundle).kind.rank < g.recordedKind.rank := by
  rw [(windowClassification_fields g bundle).1] at hrank
  have hpos := rank_of_incident hk
  have hrecovery : IncidentKind.recovery.rank < g.recordedKind.rank := hpos
  have hkind : (g.classified bundle).kind.rank < g.recordedKind.rank := by
    rw [(classified_kind h).1]
    have hmet : ¬¬g.classificationContext.cleanStreak + 1 ≥
        g.config.policy.hysteresis.minDwellWindows := not_not.mpr hd
    unfold applyHysteresis
    simp only
    rw [if_pos ⟨hrank, by show 0 < g.recordedKind.rank; omega⟩, if_neg hmet]
    split_ifs
    · exact hrecovery
    · exact hrank
  rw [windowClassification_eq]
  split_ifs
  · exact hrecovery
  · exact hkind

/-- A window below a bound on a record below it stays below it. -/
theorem rank_lt_of_below (h : g.accepts bundle) {bound : ℤ} (hb : 2 < bound)
    (hrecorded : g.recordedKind.rank < bound)
    (hrank : (g.windowClassification bundle).instantaneousKind.rank < bound) :
    (g.windowClassification bundle).kind.rank < bound := by
  rw [(windowClassification_fields g bundle).1] at hrank
  have hkind : (g.classified bundle).kind.rank < bound := by
    rw [(classified_kind h).1]
    rcases applyHysteresis_cases g.config.policy g.classificationContext
      (g.classified bundle).instantaneousKind with ⟨hsame, -⟩ | ⟨-, hprior | hstepped⟩
    · rw [hsame]
      exact hrank
    · rw [hprior]
      exact hrecorded
    · rw [hstepped]
      exact hb
  rw [windowClassification_eq]
  split_ifs
  · exact hb
  · exact hkind

/-! ### The record of a window -/

theorem trimHistory_getLast? {maxHistory : ℕ} (hmax : 1 ≤ maxHistory) (history : List WindowRecord)
    (record : WindowRecord) :
    (trimHistory maxHistory (history ++ [record])).getLast? = some record := by
  have hkeep : ∀ {bound : ℕ} (xs : List WindowRecord), 1 ≤ bound →
      xs.getLast? = some record → (keepLast bound xs).getLast? = some record := by
    intro bound xs hbound hlast
    have hpos : 0 < xs.length := List.length_pos_of_mem (List.mem_of_getLast? hlast)
    unfold keepLast
    rw [List.getLast?_drop, if_neg (by omega)]
    exact hlast
  unfold trimHistory
  rw [if_neg (by omega)]
  exact hkeep _ (by decide) (hkeep _ hmax List.getLast?_concat)

/-- A committed window is the last recorded one, a fenced one is not recorded. -/
theorem evaluate_recordedKind (h : g.accepts bundle) (hmax : 1 ≤ g.config.maxHistory) :
    (g.evaluate bundle).2.recordedKind =
      if g.liveFence bundle = none then (g.windowClassification bundle).kind
      else g.recordedKind := by
  rcases evaluate_cases g bundle with ⟨hn, -⟩ | ⟨_, view, denial, _, hf, he⟩ | ⟨_, hf, he⟩
  · exact absurd h hn
  · have hhistory : (g.fence bundle view denial.1 denial.2).2.state.history = g.state.history :=
      countedState_history g bundle
    rw [if_neg (by rw [hf]; nofun), he]
    unfold recordedKind
    rw [hhistory]
  · have hhistory : (g.commit bundle (g.effect bundle)).2.state.history =
        trimHistory g.config.maxHistory
          ((g.effectState bundle (g.effect bundle)).history ++ [g.windowRecord bundle]) := rfl
    rw [if_pos hf, he]
    unfold recordedKind
    rw [hhistory, trimHistory_getLast? hmax]
    rfl

/-! ### The acting record -/

/-- Every live record behind the first waits for its revalidation. -/
def actsAlone (g : Governor) : Prop :=
  ∀ record ∈ (liveRecords g.state.interventions).tail, record.state = .revalidating

theorem liveRecords_of_dead {table : List Intervention} (h : ∀ record ∈ table, ¬record.live) :
    liveRecords table = [] := by
  rw [liveRecords, List.filter_eq_nil_iff]
  intro record hm
  simpa using h record hm

theorem liveRecords_put {view : LiveView} (hv : g.liveView = some view) (record : Intervention) :
    liveRecords (view.put record) =
      (if record.live then [record] else []) ++ liveRecords view.after := by
  have hbefore := liveRecords_of_dead (liveView_splits hv).dead
  unfold liveRecords at hbefore ⊢
  unfold LiveView.put
  rw [List.filter_append, hbefore, List.nil_append, List.filter_cons]
  by_cases hl : record.live
  · rw [if_pos (decide_eq_true hl), if_pos hl]
    rfl
  · rw [if_neg (by simpa using hl), if_neg hl]
    rfl

theorem liveRecords_trim (table : List Intervention) :
    liveRecords (trimInterventions table) = liveRecords table := by
  unfold trimInterventions
  split_ifs
  · rfl
  · have hterminal : ∀ record ∈ (table.reverse.filter fun i => decide ¬i.live).take
        (kMaxInterventions - (table.filter fun i => decide i.live).length), ¬record.live :=
      fun record hm => of_decide_eq_true (List.mem_filter.mp (List.take_subset _ _ hm)).2
    have hnone := liveRecords_of_dead hterminal
    unfold liveRecords at hnone ⊢
    rw [List.filter_append, hnone, List.append_nil, List.filter_filter]
    simp only [Bool.and_self]

/-- The live records behind the first are left behind the one that takes its place. -/
theorem tail_put {view : LiveView} (hv : g.liveView = some view) (h : g.actsAlone)
    (record : Intervention) :
    ∀ other ∈ (liveRecords (view.put record)).tail, other.state = .revalidating := by
  have hlive := liveRecords_put hv view.live
  rw [if_pos (liveView_splits hv).live, ← (liveView_splits hv).table] at hlive
  have hafter : ∀ other ∈ liveRecords view.after, other.state = .revalidating := by
    intro other hm
    refine h other ?_
    rw [hlive]
    exact hm
  rw [liveRecords_put hv]
  split_ifs
  · exact hafter
  · intro other hm
    exact hafter other (List.mem_of_mem_tail hm)

theorem evaluate_actsAlone (h : g.actsAlone) : (g.evaluate bundle).2.actsAlone := by
  unfold actsAlone
  rcases evaluate_cases g bundle with ⟨_, decision, reason, detail, he⟩ |
    ⟨_, view, denial, hv, _, he⟩ | ⟨ha, hf, he⟩
  · rw [he]
    exact h
  · rw [he, fence_interventions]
    exact tail_put hv h _
  · rw [he, commit_interventions, liveRecords_trim, effectState_interventions]
    have hput : ∀ record live, g.liveRecord bundle = some live →
        ∀ other ∈ (liveRecords (g.putLive record)).tail, other.state = .revalidating := by
      intro record live hl
      obtain ⟨view, hv, -⟩ := view_of_liveRecord hf hl
      rw [putLive_eq hv]
      exact tail_put hv h record
    have hby := effect_by g bundle
    generalize g.effect bundle = effect at hby ⊢
    cases hby with
    | issue hl =>
      have hdead := liveRecords_of_dead (findLive_eq_none.mp ((liveRecord_eq_none hf).mp hl))
      unfold liveRecords at hdead ⊢
      simp only
      rw [List.filter_append, hdead, List.nil_append]
      intro other hm
      have hlength := List.length_filter_le (fun i : Intervention => decide i.live)
        [createdRecord bundle g.config.policy (g.instant bundle) (g.synthesis bundle).intent]
      have htail := List.length_pos_of_mem hm
      rw [List.length_tail] at htail
      rw [List.length_singleton] at hlength
      omega
    | hold live hl => exact hput _ live hl
    | carryOn live hl => exact hput _ live hl
    | recover live hl => exact hput _ live hl
    | relax live hl => exact hput _ live hl
    | retireUnfounded live hl => exact hput _ live hl
    | keep live hl => exact hput _ live hl
    | idle => exact h

/-- Where every live record waits for its revalidation, none acts. -/
theorem actsAlone_of_revalidating
    (h : ∀ record ∈ g.state.interventions, record.live → record.state = .revalidating) :
    g.actsAlone := by
  intro record hm
  obtain ⟨hrecord, hlive⟩ := List.mem_filter.mp (List.mem_of_mem_tail hm)
  exact h record hrecord (of_decide_eq_true hlive)

theorem create_actsAlone (config : GovernorConfig) : (create config).actsAlone :=
  actsAlone_of_revalidating fun _ hm => absurd hm List.not_mem_nil

theorem retireIn_liveRecords {id : InterventionId} {now : Timestamp} {reason : Text}
    {table retired : List Intervention} (h : retireIn id now reason table = .ok retired) :
    (liveRecords retired).Sublist (liveRecords table) := by
  induction table generalizing retired with
  | nil => cases h
  | cons record rest ih =>
    unfold retireIn at h
    split_ifs at h with hid hterminal
    · cases hrest : retireIn id now reason rest with
      | error e =>
        rw [hrest] at h
        cases h
      | ok inner =>
        rw [hrest] at h
        obtain rfl := Except.ok.inj h
        unfold liveRecords at ih ⊢
        rw [List.filter_cons, List.filter_cons]
        split_ifs
        · exact (ih hrest).cons_cons record
        · exact ih hrest
    · cases h
    · cases hm : transition record .retired now reason with
      | error e =>
        rw [hm] at h
        cases h
      | ok moved =>
        rw [hm] at h
        obtain rfl := Except.ok.inj h
        have hdead := not_live_of_retired (transition_movedTo hm (by decide)).state
        unfold liveRecords
        rw [List.filter_cons, List.filter_cons, if_neg (by simpa using hdead)]
        split_ifs
        · exact List.sublist_cons_self _ _
        · exact List.Sublist.refl _

theorem step_actsAlone (g : Governor) (operation : Operation) (h : g.actsAlone) :
    (g.step operation).actsAlone := by
  have hby := step_by g operation
  generalize g.step operation = after at hby ⊢
  cases hby with
  | evaluated bundle => exact evaluate_actsAlone h
  | @policyChanged policy now =>
    refine actsAlone_of_revalidating fun moved hm hlive => ?_
    obtain ⟨record, -, rfl⟩ := List.mem_map.mp hm
    by_cases hl : record.live
    · exact (revalidateRecord_live policy now hl).state
    · rw [revalidateRecord_dead policy now hl] at hlive
      exact absurd hlive hl
  | retired hr => exact fun record hm => h record ((retireIn_liveRecords hr).tail.subset hm)
  | @restored state =>
    refine actsAlone_of_revalidating fun moved hm hlive => ?_
    obtain ⟨record, -, rfl⟩ := List.mem_map.mp hm
    by_cases hl : record.live
    · exact (restoreRecord_live state.lastEvaluation hl).state
    · rw [restoreRecord_dead state.lastEvaluation hl] at hlive
      exact absurd hlive hl
  | stopped now =>
    refine actsAlone_of_revalidating fun moved hm hlive => ?_
    obtain ⟨record, -, rfl⟩ := List.mem_map.mp hm
    by_cases hl : record.live
    · exact absurd hlive (not_live_of_retired (shutdownRecord_live now hl).state)
    · rw [shutdownRecord_dead now hl] at hlive
      exact absurd hlive hl
  | reset => exact create_actsAlone g.config
  | policyRefused | policyKept | bindRefused | bound | retireRefused | restoreRefused => exact h

/-- The record that acts is the one an evaluation finds. -/
theorem view_of_acting (h : g.actsAlone) {record : Intervention}
    (hm : record ∈ g.state.interventions)
    (hs : record.state = .active ∨ record.state = .relaxing) :
    ∃ view, g.liveView = some view ∧ view.live = record := by
  have hlive : record.live := by
    unfold Intervention.live InterventionState.live
    rcases hs with hs | hs <;> rw [hs] <;> decide
  cases hv : g.liveView with
  | none => exact absurd hlive (findLive_eq_none.mp hv record hm)
  | some view =>
    refine ⟨view, rfl, ?_⟩
    have hrecords := liveRecords_put hv view.live
    rw [if_pos (liveView_splits hv).live, ← (liveView_splits hv).table] at hrecords
    have hmem : record ∈ liveRecords g.state.interventions :=
      List.mem_filter.mpr ⟨hm, decide_eq_true hlive⟩
    rw [hrecords, List.singleton_append] at hmem
    rcases List.mem_cons.mp hmem with hfirst | hrest
    · exact hfirst.symm
    · have hwaits := h record (by rw [hrecords]; exact hrest)
      rw [hwaits] at hs
      rcases hs with hs | hs <;> cases hs

/-! ### The hold -/

/-- A window that hysteresis holds continues the acting intervention as it is: of its record
only the expiry, the time of the update and the count of continuations move. -/
structure HoldsRecord (g : Governor) (bundle : EvidenceBundle) (record : Intervention) : Prop where
  outcome : (g.evaluate bundle).1.outcome = .interventionContinued
  recorded : (g.evaluate bundle).2.recordedKind = g.recordedKind
  table : ∃ before after expiry now continueSteps,
    g.state.interventions = before ++ record :: after ∧
      (g.evaluate bundle).2.state.interventions = before ++ { record with
        expiresAt := expiry, intent := { record.intent with expiresAt := expiry }
        updatedAt := now, continueSteps } :: after

theorem holdsRecord_of_unmet (hinv : tableBounded g) (halone : g.actsAlone)
    (hmax : 1 ≤ g.config.maxHistory) (hk : g.recordedKind.incident) {record : Intervention}
    (hm : record ∈ g.state.interventions)
    (hs : record.state = .active ∨ record.state = .relaxing)
    (hf : isFenced record (g.fenceContext bundle) = none) (h : g.accepts bundle)
    (hrank : (g.windowClassification bundle).instantaneousKind.rank < g.recordedKind.rank)
    (hd : ¬g.dwellMet) : HoldsRecord g bundle record := by
  obtain ⟨view, hv, rfl⟩ := view_of_acting halone hm hs
  obtain ⟨hkind, hheld⟩ := held_of_unmet h hk hrank hd
  have hunfenced : g.liveFence bundle = none := by
    unfold liveFence
    rw [hv]
    exact hf
  have hl := liveRecord_of_view hunfenced hv
  have hholds : holds (g.windowClassification bundle) view.live :=
    ⟨hheld, windowClassification_authoritative h, by rw [hkind]; exact hk, hs⟩
  have heffect : g.effect bundle = .hold (heldRecord (g.instant bundle) view.live) := by
    unfold effect
    rw [hl]
    exact if_pos hholds
  have htable := (liveView_splits hv).table
  refine ⟨?_, ?_, view.before, view.after,
    ⟨(g.instant bundle).nanos + view.live.intent.duration.nanos⟩, g.instant bundle,
    view.live.continueSteps + 1, htable, ?_⟩
  · rw [evaluate_committed h hunfenced, commit_outcome, heffect]
    rfl
  · rw [evaluate_recordedKind h hmax, if_pos hunfenced, hkind]
  · rw [evaluate_committed h hunfenced, commit_interventions, effectState_interventions, heffect]
    simp only
    rw [trim_putLive hinv hv]
    rfl

theorem run_maxHistory (config : GovernorConfig) (operations : List Operation) :
    (Foundation.run step (create config) operations).config.maxHistory = config.maxHistory :=
  Foundation.run_invariant (s := create config)
    (P := fun g : Governor => g.config.maxHistory = config.maxHistory)
    (fun g operation hg => (step_config g operation).1.trans hg) rfl operations

/-- In every reachable state: while the recorded kind is an incident and the dwell is not met,
an accepted window below it holds the acting intervention. -/
theorem run_holds_until_dwell {config : GovernorConfig} {operations : List Operation}
    (hmax : 1 ≤ config.maxHistory) (hg : g = Foundation.run step (create config) operations)
    (hk : g.recordedKind.incident) {record : Intervention} (hm : record ∈ g.state.interventions)
    (hs : record.state = .active ∨ record.state = .relaxing)
    (hf : isFenced record (g.fenceContext bundle) = none) (h : g.accepts bundle)
    (hrank : (g.windowClassification bundle).instantaneousKind.rank < g.recordedKind.rank)
    (hd : g.state.cleanStreak + 1 < g.config.policy.hysteresis.minDwellWindows) :
    HoldsRecord g bundle record := by
  have hbounded : tableBounded g := by
    rw [hg]
    exact Foundation.run_invariant tableBounded_step (tableBounded_create config) operations
  have halone : g.actsAlone := by
    rw [hg]
    exact Foundation.run_invariant step_actsAlone (create_actsAlone config) operations
  have hhistory : g.config.maxHistory = config.maxHistory := by
    rw [hg, run_maxHistory]
  exact holdsRecord_of_unmet hbounded halone (hhistory ▸ hmax) hk hm hs hf h hrank
    (UInt32.not_le.mpr hd)

/-- The governor after one incident window. -/
def incidentGovernor : Governor := Foundation.run step (create sampleConfig) [.evaluate incidentWindow]

/-- The first calm window after the incident holds its intervention. -/
theorem run_holds_until_dwell_once :
    ∃ record ∈ incidentGovernor.state.interventions,
      HoldsRecord incidentGovernor (calmWindow 2 2000000000) record := by
  have hfirst : ∃ record ∈ incidentGovernor.state.interventions,
      (record.state = .active ∨ record.state = .relaxing) ∧
        isFenced record (incidentGovernor.fenceContext (calmWindow 2 2000000000)) = none := by
    decide +kernel
  obtain ⟨record, hm, hs, hf⟩ := hfirst
  have hmax : 1 ≤ sampleConfig.maxHistory := by decide
  exact ⟨record, hm, run_holds_until_dwell hmax rfl (by decide +kernel) hm hs hf
    (by decide +kernel) (by decide +kernel) (by decide +kernel)⟩

end Governor

end IncastGovernor
