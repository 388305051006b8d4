import IncastGovernor.Governor.Steps
import Mathlib.Data.List.Perm.Subperm

/-! The representation of a governor's state: one live record at most, records under
pairwise distinct identities below the next one, bounded intents and bounded tables. Every
operation keeps it, except the issue that takes the last identity there is: the next one
wraps to the absent identity. -/

namespace IncastGovernor

/-- The live records of a table. -/
def liveRecords (table : List Intervention) : List Intervention :=
  table.filter fun intervention => intervention.live

/-- Records under pairwise distinct identities below the next one. -/
structure IdsUnique (table : List Intervention) (next : InterventionGeneration) : Prop where
  ids : ∀ record ∈ table, record.id.valid ∧ record.id.value < next.value
  distinct : (table.map fun record => record.id).Nodup

/-- A table of records under identities below the next one. -/
structure TableSound (table : List Intervention) (next : InterventionGeneration) : Prop where
  live : (liveRecords table).length ≤ 1
  ids : ∀ record ∈ table, record.id.valid ∧ record.id.value < next.value
  distinct : (table.map fun record => record.id).Nodup
  bounded : ∀ record ∈ table, record.intent.bounded = true

/-- The representation invariant of a state. -/
structure GovernorState.Represents (maxHistory : ℕ) (state : GovernorState) : Prop where
  table : TableSound state.interventions state.nextInterventionGeneration
  length : state.interventions.length ≤ kMaxInterventions
  history : state.history.length ≤ min maxHistory kMaxWindowHistory
  revalidation : (∃ record ∈ state.interventions, record.state = .revalidating) →
    state.requiresRevalidation = true

/-! ### Trimmed tables -/

theorem trimHistory_subset (maxHistory : ℕ) (history : List WindowRecord) :
    trimHistory maxHistory history ⊆ history := by
  unfold trimHistory keepLast
  split_ifs
  · exact List.nil_subset _
  · exact fun record hm => List.drop_subset _ _ (List.drop_subset _ _ hm)

theorem trimHistory_length (maxHistory : ℕ) (history : List WindowRecord) :
    (trimHistory maxHistory history).length ≤ min maxHistory kMaxWindowHistory := by
  unfold trimHistory keepLast
  split_ifs
  · exact Nat.zero_le _
  · simp only [List.length_drop]
    omega

/-- The records a trim leaves out. -/
def trimmedInterventions (table : List Intervention) : List Intervention :=
  if table.length ≤ kMaxInterventions then []
  else
    let live := table.filter fun intervention => intervention.live
    let terminal := table.reverse.filter fun intervention => ¬intervention.live
    terminal.drop (kMaxInterventions - live.length)

theorem trimmedInterventions_of_length_le {table : List Intervention}
    (h : table.length ≤ kMaxInterventions) : trimmedInterventions table = [] := if_pos h

/-- A trim sorts a table into what it keeps and what it leaves out. -/
theorem trim_perm (table : List Intervention) :
    (trimInterventions table ++ trimmedInterventions table).Perm table := by
  unfold trimInterventions trimmedInterventions
  split_ifs with hle
  · rw [List.append_nil]
  · rw [List.append_assoc, List.take_append_drop]
    have hterminal : (table.reverse.filter fun i => decide ¬i.live).Perm
        (table.filter fun i => !decide i.live) := by
      simp only [decide_not]
      exact (List.reverse_perm table).filter _
    exact (hterminal.append_left _).trans (List.filter_append_perm (fun i => decide i.live) table)

/-- A trimmed table holds each record as often as before, or less. -/
theorem trimInterventions_subperm (table : List Intervention) :
    (trimInterventions table).Subperm table :=
  (List.sublist_append_left _ _).subperm.trans (trim_perm table).subperm

theorem TableSound.unique {table : List Intervention} {next : InterventionGeneration}
    (h : TableSound table next) : IdsUnique table next := ⟨h.ids, h.distinct⟩

theorem IdsUnique.subperm {before after : List Intervention} {next : InterventionGeneration}
    (h : IdsUnique before next) (hs : after.Subperm before) : IdsUnique after next where
  ids := fun record hm => h.ids record (hs.subset hm)
  distinct := by
    obtain ⟨between, hperm, hsub⟩ := hs
    exact (hperm.map _).nodup_iff.mp (h.distinct.sublist (hsub.map _))

/-- A table with the identities of another. -/
theorem IdsUnique.same_ids {before after : List Intervention} {next : InterventionGeneration}
    (h : IdsUnique before next)
    (hids : (after.map fun record => record.id) = before.map fun record => record.id) :
    IdsUnique after next where
  ids := by
    intro moved hm
    have hid : moved.id ∈ before.map fun record => record.id := by
      rw [← hids]
      exact List.mem_map_of_mem hm
    obtain ⟨record, hrecord, he⟩ := List.mem_map.mp hid
    rw [← he]
    exact h.ids record hrecord
  distinct := by
    rw [hids]
    exact h.distinct

/-- Records under one identity are one record. -/
theorem IdsUnique.eq_of_id_eq {table : List Intervention} {next : InterventionGeneration}
    (h : IdsUnique table next) {a b : Intervention} (ha : a ∈ table) (hb : b ∈ table)
    (hid : a.id = b.id) : a = b := List.inj_on_of_nodup_map h.distinct ha hb hid

theorem TableSound.subperm {before after : List Intervention} {next : InterventionGeneration}
    (h : TableSound before next) (hs : after.Subperm before) : TableSound after next where
  live := (hs.filter _).length_le.trans h.live
  ids := (h.unique.subperm hs).ids
  distinct := (h.unique.subperm hs).distinct
  bounded := fun record hm => h.bounded record (hs.subset hm)

/-! ### Moved tables -/

/-- What a sound table asks of a record that takes the place of another. -/
structure Keeps (record moved : Intervention) : Prop where
  id : moved.id = record.id
  live : moved.live → record.live
  bounded : record.intent.bounded = true → moved.intent.bounded = true

theorem map_id_of_keeps {before after : List Intervention} (h : List.Forall₂ Keeps before after) :
    (after.map fun record => record.id) = before.map fun record => record.id := by
  induction h with
  | nil => rfl
  | cons hfirst _ ih => rw [List.map_cons, List.map_cons, hfirst.id, ih]

theorem liveRecords_of_keeps {before after : List Intervention}
    (h : List.Forall₂ Keeps before after) :
    (liveRecords after).length ≤ (liveRecords before).length := by
  unfold liveRecords
  induction h with
  | nil => exact le_rfl
  | @cons record moved rest _ hfirst _ ih =>
    rw [List.filter_cons, List.filter_cons]
    by_cases hm : moved.live
    · rw [if_pos (decide_eq_true hm), if_pos (decide_eq_true (hfirst.live hm))]
      exact Nat.succ_le_succ ih
    · rw [if_neg (by simpa using hm)]
      split_ifs
      · exact ih.trans (Nat.le_succ _)
      · exact ih

theorem bounded_of_keeps {before after : List Intervention} (h : List.Forall₂ Keeps before after)
    (hb : ∀ record ∈ before, record.intent.bounded = true) :
    ∀ record ∈ after, record.intent.bounded = true := by
  induction h with
  | nil => exact hb
  | cons hfirst _ ih =>
    intro moved hm
    rcases List.mem_cons.mp hm with rfl | hm
    · exact hfirst.bounded (hb _ List.mem_cons_self)
    · exact ih (fun record hr => hb record (List.mem_cons_of_mem _ hr)) moved hm

theorem TableSound.keeps {before after : List Intervention} {next : InterventionGeneration}
    (hs : TableSound before next) (h : List.Forall₂ Keeps before after) : TableSound after next where
  live := (liveRecords_of_keeps h).trans hs.live
  ids := (hs.unique.same_ids (map_id_of_keeps h)).ids
  distinct := (hs.unique.same_ids (map_id_of_keeps h)).distinct
  bounded := bounded_of_keeps h hs.bounded

namespace Governor

variable {g : Governor}

/-- The intents a window publishes are bounded. -/
theorem synthesis_bounded_of_acts {bundle : EvidenceBundle} (h : g.accepts bundle)
    (ha : g.actsOnIncident bundle) : (g.synthesis bundle).intent.bounded = true := by
  obtain ⟨action, _, hintent⟩ := synthesis_intent_of_acts h ha
  rw [hintent]
  rfl

theorem synthesis_bounded_of_recovery {bundle : EvidenceBundle} {live : Intervention}
    (hg : g.Governs bundle live) (hk : (g.windowClassification bundle).kind = .recovery)
    (ha : (g.synthesis bundle).authority.interventionAuthorized = true)
    (hb : live.intent.bounded = true) : (g.synthesis bundle).intent.bounded = true := by
  rw [synthesis_intent_of_recovery hg hk ha]
  simp only
  split_ifs
  · exact hb
  · rfl

theorem bounded_of_moves {operation : Operation} {record moved : Intervention}
    (h : Moves g operation record moved) (hb : record.intent.bounded = true) :
    moved.intent.bounded = true := by
  cases h with
  | kept => exact hb
  | revalidated policy now =>
    by_cases hl : record.live
    · rw [(revalidateRecord_live policy now hl).same.intent]
      exact hb
    · rw [revalidateRecord_dead policy now hl]
      exact hb
  | retired id now reason _ _ hm =>
    rw [(transition_movedTo hm (by decide)).same.intent]
    exact hb
  | stopped now =>
    by_cases hl : record.live
    · rw [(shutdownRecord_live now hl).same.intent]
      exact hb
    · rw [shutdownRecord_dead now hl]
      exact hb
  | fenced bundle _ detail =>
    rw [(fencedRecord_movedTo (g.instant bundle) detail record).same.intent]
    exact hb
  | held => exact hb
  | continued _ _ hg ha => exact synthesis_bounded_of_acts hg.accepts ha
  | recovered _ _ hg hk ha => exact synthesis_bounded_of_recovery hg hk ha hb
  | relaxed _ _ hg hk ha => exact synthesis_bounded_of_recovery hg hk ha hb
  | unfounded bundle =>
    have hs := tryTransition_sameRecord record .retired (g.instant bundle)
      (ascii "revalidation found no incident")
    exact (congrArg MitigationIntent.bounded hs.intent).trans hb

theorem keeps_of_moves {operation : Operation} {record moved : Intervention}
    (h : Moves g operation record moved) : Keeps record moved :=
  ⟨(moves_binding h).1, live_of_moves h, bounded_of_moves h⟩

theorem restoreRecord_keeps (now : Timestamp) (record : Intervention) :
    Keeps record (restoreRecord now record) := by
  by_cases hl : record.live
  · have hm := restoreRecord_live now hl
    exact ⟨hm.same.id, fun _ => hl, fun hb => hm.same.intent ▸ hb⟩
  · rw [restoreRecord_dead now hl]
    exact ⟨rfl, id, id⟩

/-! ### An issue -/

/-- The identity of an issued record is the next one. -/
theorem issuedRecord_id {bundle : EvidenceBundle} (h : g.Issues bundle) :
    (g.issuedRecord bundle).id.value = g.state.nextInterventionGeneration.value := by
  obtain ⟨action, _, hintent⟩ := synthesis_intent_of_acts h.accepts h.acts
  have hid : (g.issuedRecord bundle).id = (g.synthesis bundle).intent.intervention := by
    unfold issuedRecord createdRecord
    exact (tryTransition_binding _ _ _ _).1.trans (tryTransition_binding _ _ _ _).1
  have hrequest : (actionIntent (g.synthesisRequest bundle) bundle g.config.policy
      (g.windowClassification bundle) action).intervention =
        (g.synthesisRequest bundle).intervention := by
    unfold actionIntent finishIntent MitigationIntent.clampToBounds escalate
    split_ifs <;> rfl
  rw [hid, hintent, hrequest]
  show ((((g.liveRecord bundle).map fun record => record.id).getD _ : InterventionId)).value = _
  rw [(liveRecord_eq_none h.unfenced).mpr h.vacant]
  rfl

/-- The next identity is absent, or the one after it would be. -/
def lastIdentity (next : InterventionGeneration) : Prop :=
  ¬next.valid ∨ ¬next.next.valid

instance (next : InterventionGeneration) : Decidable (lastIdentity next) := by
  delta lastIdentity; infer_instance

theorem next_value_toNat {next : InterventionGeneration} (h : ¬lastIdentity next) :
    next.value.toNat ≠ 0 ∧ next.next.value.toNat = next.value.toNat + 1 := by
  unfold lastIdentity Generation.valid at h
  push Not at h
  obtain ⟨hzero, hnext⟩ := h
  have hlt := next.value.toNat_lt
  have hz : next.value.toNat ≠ 0 := fun he => hzero (UInt64.toNat_inj.mp he)
  have hn : (next.value + 1).toNat ≠ 0 := fun he => hnext (UInt64.toNat_inj.mp he)
  have hadd : (next.value + 1).toNat = (next.value.toNat + 1) % 2 ^ 64 := UInt64.toNat_add _ _
  refine ⟨hz, ?_⟩
  show (next.value + 1).toNat = _
  rw [hadd] at hn ⊢
  omega

theorem idsUnique_issued {bundle : EvidenceBundle} (h : g.Issues bundle)
    (hs : IdsUnique g.state.interventions g.state.nextInterventionGeneration)
    (hn : ¬lastIdentity g.state.nextInterventionGeneration) :
    IdsUnique (g.state.interventions ++ [g.issuedRecord bundle])
      g.state.nextInterventionGeneration.next := by
  have hid := issuedRecord_id h
  obtain ⟨hzero, hnext⟩ := next_value_toNat hn
  constructor
  · intro record hm
    rcases List.mem_append.mp hm with hold | hnew
    · obtain ⟨hvalid, hlt⟩ := hs.ids record hold
      refine ⟨hvalid, ?_⟩
      rw [UInt64.lt_iff_toNat_lt] at hlt ⊢
      omega
    · rw [List.mem_singleton.mp hnew]
      refine ⟨fun he => hzero ?_, ?_⟩
      · rw [← hid, he]
        rfl
      · rw [hid, UInt64.lt_iff_toNat_lt]
        omega
  · rw [List.map_append, List.nodup_append]
    refine ⟨hs.distinct, List.nodup_singleton _, ?_⟩
    intro a ha b hb he
    obtain ⟨record, hrecord, rfl⟩ := List.mem_map.mp ha
    have hlt := (hs.ids record hrecord).2
    rw [he, List.mem_singleton.mp hb, hid] at hlt
    exact UInt64.lt_irrefl _ hlt

theorem tableSound_issued {bundle : EvidenceBundle} (h : g.Issues bundle)
    (hs : TableSound g.state.interventions g.state.nextInterventionGeneration)
    (hn : ¬lastIdentity g.state.nextInterventionGeneration) :
    TableSound (g.state.interventions ++ [g.issuedRecord bundle])
      g.state.nextInterventionGeneration.next where
  live := by
    have hdead := findLive_eq_none.mp h.vacant
    have hnone : liveRecords g.state.interventions = [] := by
      rw [liveRecords, List.filter_eq_nil_iff]
      intro record hm
      simpa using hdead record hm
    unfold liveRecords at hnone ⊢
    rw [List.filter_append, hnone, List.nil_append]
    exact List.length_filter_le _ _
  ids := (idsUnique_issued h hs.unique hn).ids
  distinct := (idsUnique_issued h hs.unique hn).distinct
  bounded := by
    intro record hm
    rcases List.mem_append.mp hm with hold | hnew
    · exact hs.bounded record hold
    · rw [List.mem_singleton.mp hnew, issuedRecord_intent]
      exact synthesis_bounded_of_acts h.accepts h.acts

/-- An issue under the last identity leaves a record that is not below the next one. -/
theorem not_tableSound_issued {bundle : EvidenceBundle} (h : g.Issues bundle)
    (hn : lastIdentity g.state.nextInterventionGeneration) :
    ¬TableSound (trimInterventions (g.state.interventions ++ [g.issuedRecord bundle]))
      g.state.nextInterventionGeneration.next := by
  intro hs
  have hmem : g.issuedRecord bundle ∈
      trimInterventions (g.state.interventions ++ [g.issuedRecord bundle]) :=
    mem_trimInterventions_of_live (by simp) issuedRecord_live
  obtain ⟨hvalid, hlt⟩ := hs.ids _ hmem
  have hid := issuedRecord_id h
  rcases hn with hzero | hwrapped
  · apply hzero
    unfold Generation.valid
    rw [← hid]
    exact hvalid
  · unfold Generation.valid at hwrapped
    rw [not_not.mp hwrapped] at hlt
    exact UInt64.not_lt_zero hlt

/-! ### Operations -/

/-- An issue that has no next identity left. -/
def exhaustsIdentities (g : Governor) : Operation → Prop
  | .evaluate bundle => g.Issues bundle ∧ lastIdentity g.state.nextInterventionGeneration
  | _ => False

/-- A restored state is sound itself. -/
def restoresSound (maxHistory : ℕ) : Operation → Prop
  | .restoreState state => state.Represents maxHistory
  | _ => True

theorem tableSound_step {operation : Operation}
    (hs : TableSound g.state.interventions g.state.nextInterventionGeneration)
    (hr : restoresSound g.config.maxHistory operation) (he : ¬g.exhaustsIdentities operation) :
    TableSound (g.step operation).state.interventions
      (g.step operation).state.nextInterventionGeneration := by
  have htable := step_table g operation
  generalize (g.step operation).state.interventions = table at htable ⊢
  generalize (g.step operation).state.nextInterventionGeneration = next at htable ⊢
  cases htable with
  | moved h => exact hs.keeps (h.imp fun _ _ hm => keeps_of_moves hm)
  | committed h =>
    exact (hs.keeps (h.imp fun _ _ hm => keeps_of_moves hm)).subperm (trimInterventions_subperm _)
  | issued h =>
    exact (tableSound_issued h hs fun hn => he ⟨h, hn⟩).subperm (trimInterventions_subperm _)
  | @restored state _ =>
    apply hr.table.keeps
    rw [List.forall₂_map_right_iff]
    exact List.forall₂_same.mpr fun record _ => restoreRecord_keeps _ record
  | reset => exact ⟨Nat.zero_le _, by simp, List.nodup_nil, by simp⟩

theorem history_step {operation : Operation}
    (h : g.state.history.length ≤ min g.config.maxHistory kMaxWindowHistory)
    (hr : restoresSound g.config.maxHistory operation) :
    (g.step operation).state.history.length ≤ min g.config.maxHistory kMaxWindowHistory := by
  have hby := step_history g operation
  generalize (g.step operation).state.history = history at hby ⊢
  cases hby with
  | kept => exact h
  | recorded => exact trimHistory_length _ _
  | restored => exact hr.history
  | reset => exact Nat.zero_le _

/-- A revalidating record of a table that an operation only moves was one before. -/
theorem revalidating_of_moved {operation : Operation} {before after : List Intervention}
    (h : List.Forall₂ (Moves g operation) before after)
    (hm : ∀ record moved, Moves g operation record moved → moved.state = .revalidating →
      record.state = .revalidating)
    (hr : ∃ record ∈ after, record.state = .revalidating) :
    ∃ record ∈ before, record.state = .revalidating := by
  obtain ⟨moved, hmem, hstate⟩ := hr
  obtain ⟨record, hrecord, hmoves⟩ := exists_source h hmem
  exact ⟨record, hrecord, hm record moved hmoves hstate⟩

theorem evaluate_revalidation {bundle : EvidenceBundle}
    (h : (∃ record ∈ g.state.interventions, record.state = .revalidating) →
      g.state.requiresRevalidation = true) :
    (∃ record ∈ (g.evaluate bundle).2.state.interventions, record.state = .revalidating) →
      (g.evaluate bundle).2.state.requiresRevalidation = true := by
  rcases evaluate_cases g bundle with ⟨_, decision, reason, detail, he⟩ | ⟨_, view, denial, _, _, he⟩ |
    ⟨_, _, he⟩
  · rw [he]
    exact h
  · rw [he]
    exact fun _ => rfl
  · rw [he]
    rintro ⟨record, hm, hstate⟩
    exact decide_eq_true ⟨record, trimInterventions_subset _ hm, hstate⟩

theorem revalidation_step {operation : Operation}
    (h : (∃ record ∈ g.state.interventions, record.state = .revalidating) →
      g.state.requiresRevalidation = true) :
    (∃ record ∈ (g.step operation).state.interventions, record.state = .revalidating) →
      (g.step operation).state.requiresRevalidation = true := by
  have hby := step_by g operation
  generalize g.step operation = after at hby ⊢
  cases hby with
  | evaluated bundle => exact evaluate_revalidation h
  | policyChanged => exact fun _ => rfl
  | @retired id now reason _ hr =>
    intro hrevalidating
    refine h (@revalidating_of_moved g (.retire id now reason) _ _ (retireIn_table hr) ?_
      hrevalidating)
    intro record moved hmoves hstate
    cases hmoves with
    | kept => exact hstate
    | retired _ _ _ _ _ hm =>
      rw [(transition_movedTo hm (by decide)).state] at hstate
      cases hstate
  | restored => exact fun _ => rfl
  | stopped now =>
    intro hrevalidating
    refine h (@revalidating_of_moved g (.shutdown now) _ _
      (mapped_table (fun record => .stopped now record) _) ?_ hrevalidating)
    intro record moved hmoves hstate
    cases hmoves with
    | kept => exact hstate
    | stopped =>
      by_cases hl : record.live
      · rw [(shutdownRecord_live now hl).state] at hstate
        cases hstate
      · rw [shutdownRecord_dead now hl] at hstate
        exact hstate
  | reset =>
    rintro ⟨record, hm, _⟩
    cases hm
  | policyRefused | policyKept | bindRefused | bound | retireRefused | restoreRefused => exact h

/-! ### The representation invariant -/

theorem represents_create (config : GovernorConfig) :
    (create config).state.Represents config.maxHistory where
  table := ⟨Nat.zero_le _, by simp [create], List.nodup_nil, by simp [create]⟩
  length := Nat.zero_le _
  history := Nat.zero_le _
  revalidation := fun _ => rfl

theorem represents_step {operation : Operation} (h : g.state.Represents g.config.maxHistory)
    (hr : restoresSound g.config.maxHistory operation) (he : ¬g.exhaustsIdentities operation) :
    (g.step operation).state.Represents (g.step operation).config.maxHistory where
  table := tableSound_step h.table hr he
  length := tableBounded_step g operation h.length
  history := by
    rw [(step_config g operation).1]
    exact history_step h.history hr
  revalidation := revalidation_step h.revalidation

theorem not_represents_step {operation : Operation} (he : g.exhaustsIdentities operation)
    (maxHistory : ℕ) : ¬(g.step operation).state.Represents maxHistory := by
  intro h
  cases operation with
  | evaluate bundle =>
    obtain ⟨htable, hnext⟩ := evaluate_of_issues he.1
    have hs : TableSound (g.evaluate bundle).2.state.interventions
      (g.evaluate bundle).2.state.nextInterventionGeneration := h.table
    rw [htable, hnext] at hs
    exact not_tableSound_issued he.1 he.2 hs
  | _ => exact he

/-- The invariant holds of a new governor, and from any governor that satisfies it a run keeps
it throughout exactly when the run never issues under the last identity. -/
theorem representation_kept_iff (config : GovernorConfig) (g : Governor)
    (operations : List Operation) :
    (create config).state.Represents config.maxHistory ∧
      (g.state.Represents g.config.maxHistory →
        (∀ operation ∈ operations, restoresSound g.config.maxHistory operation) →
          ((∀ reached, reached <+: operations →
              (Foundation.run step g reached).state.Represents g.config.maxHistory) ↔
            ∀ call ∈ Foundation.calls step g operations, ¬call.1.exhaustsIdentities call.2)) := by
  refine ⟨represents_create config, fun hs hr => ?_⟩
  refine Foundation.prefixes_iff_calls
    (I := fun other => other.config.maxHistory = g.config.maxHistory)
    (P := fun other => other.state.Represents g.config.maxHistory)
    (C := fun other operation => ¬other.exhaustsIdentities operation)
    (fun other operation _ hmax => (step_config other operation).1.trans hmax)
    (fun other operation hm hmax hother => ?_) rfl hs
  have hsound := hr operation hm
  rw [← hmax] at hother hsound
  have hkept := represents_step hother hsound
  rw [(step_config other operation).1, hmax] at hkept
  exact ⟨fun hs he => not_represents_step he _ hs, hkept⟩

/-- An empty state whose next identity is the last one. -/
def exhaustedState : GovernorState := { nextInterventionGeneration := ⟨18446744073709551615⟩ }

/-- The restore of a sound state, a bind and an incident. -/
def exhaustedRun : List Operation :=
  [.restoreState exhaustedState, .bindAuthority ⟨1⟩ ⟨1⟩ ⟨1⟩ ⟨1⟩ ⟨9000000000⟩,
    .evaluate incidentWindow]

/-- The intervention of an exhausted governor is not below the next identity. -/
theorem exhausted_identities_break_representation :
    ¬∀ (config : GovernorConfig) (operations : List Operation),
      (∀ operation ∈ operations, restoresSound config.maxHistory operation) →
        (Foundation.run step (create config) operations).state.Represents config.maxHistory := by
  intro h
  have hsound : exhaustedState.Represents sampleConfig.maxHistory :=
    ⟨⟨Nat.zero_le _, by decide, List.nodup_nil, by decide⟩, Nat.zero_le _, Nat.zero_le _,
      fun _ => rfl⟩
  have hrun := h sampleConfig exhaustedRun fun operation hm => by
    rcases List.mem_cons.mp hm with rfl | hm
    · exact hsound
    · rcases List.mem_cons.mp hm with rfl | hm
      · trivial
      · rw [List.mem_singleton.mp hm]
        trivial
  exact absurd hrun.table.ids (by decide +kernel)

end Governor

end IncastGovernor
