import IncastGovernor.Governor.Representation

/-! Terminal records. A record that is retired, fenced, refused or expired is left as it is by
every operation until the table is trimmed, and its identity is not issued again, as long as
there are identities left to issue. -/

namespace IncastGovernor

namespace Governor

variable {g : Governor}

/-- The operations of a governor in service: no state is restored and none is reset. -/
def inService : Operation → Prop
  | .restoreState _ | .reset => False
  | _ => True

/-- What an operation in service does to a record: its identity stays, and a terminal record
stays as it is. -/
structure Rests (record moved : Intervention) : Prop where
  id : moved.id = record.id
  same : record.state.terminal → moved = record

theorem not_live_of_terminal {record : Intervention} (h : record.state.terminal) :
    ¬record.live := by
  unfold Intervention.live InterventionState.live
  rcases h with h | h | h | h <;> rw [h] <;> decide

/-- A retirement apart, which the table of transitions allows of a retired record as well, no
operation moves a terminal record. -/
theorem rests_of_moves {operation : Operation} {record moved : Intervention}
    (hr : ∀ id now reason, operation ≠ .retire id now reason)
    (h : Moves g operation record moved) : Rests record moved := by
  refine ⟨(moves_binding h).1, fun ht => ?_⟩
  have hdead := not_live_of_terminal ht
  cases h with
  | kept => rfl
  | revalidated policy now => exact revalidateRecord_dead policy now hdead
  | retired id now reason => exact absurd rfl (hr id now reason)
  | stopped now => exact shutdownRecord_dead now hdead
  | fenced _ _ _ hl => exact absurd hl hdead
  | held _ _ hg => exact absurd (governs_live hg) hdead
  | continued _ _ hg => exact absurd (governs_live hg) hdead
  | recovered _ _ hg => exact absurd (governs_live hg) hdead
  | relaxed _ _ hg => exact absurd (governs_live hg) hdead
  | unfounded _ _ hg => exact absurd (governs_live hg) hdead

theorem rests_refl (table : List Intervention) : List.Forall₂ Rests table table :=
  List.forall₂_same.mpr fun _ _ => ⟨rfl, fun _ => rfl⟩

/-- `retire` refuses a terminal record before it asks the table of transitions. -/
theorem retireIn_rests {id : InterventionId} {now : Timestamp} {reason : Text}
    {table retired : List Intervention} (h : retireIn id now reason table = .ok retired) :
    List.Forall₂ Rests table retired := by
  induction table generalizing retired with
  | nil => cases h
  | cons record rest ih =>
    unfold retireIn at h
    split_ifs at h with hid hterminal
    · cases hrest : retireIn id now reason rest with
      | error e =>
        rw [hrest] at h
        cases h
      | ok inner =>
        rw [hrest] at h
        obtain rfl := Except.ok.inj h
        exact List.Forall₂.cons ⟨rfl, fun _ => rfl⟩ (ih hrest)
    · cases h
    · cases hm : transition record .retired now reason with
      | error e =>
        rw [hm] at h
        cases h
      | ok moved =>
        rw [hm] at h
        obtain rfl := Except.ok.inj h
        have hmoved := transition_movedTo hm (by decide)
        exact List.Forall₂.cons ⟨hmoved.same.id, fun ht => absurd ht hterminal⟩ (rests_refl rest)

/-- A window is committed, and the trim of its table drops the record. -/
def trims (g : Governor) (operation : Operation) (record : Intervention) : Prop :=
  ∃ bundle, operation = .evaluate bundle ∧ g.accepts bundle ∧ g.liveFence bundle = none ∧
    record ∈ (g.effectState bundle (g.effect bundle)).interventions ∧
    record ∉ trimInterventions (g.effectState bundle (g.effect bundle)).interventions

/-- What an operation in service does to the table. -/
inductive RestsBy (g : Governor) : Operation → List Intervention → Prop
  | rested {operation : Operation} {table : List Intervention}
    (h : List.Forall₂ Rests g.state.interventions table) : RestsBy g operation table
  | committed {bundle : EvidenceBundle} (ha : g.accepts bundle) (hf : g.liveFence bundle = none)
    (h : List.Forall₂ Rests g.state.interventions
      (g.effectState bundle (g.effect bundle)).interventions) :
    RestsBy g (.evaluate bundle)
      (trimInterventions (g.effectState bundle (g.effect bundle)).interventions)
  | issued {bundle : EvidenceBundle} (h : g.Issues bundle)
    (ht : (g.effectState bundle (g.effect bundle)).interventions =
      g.state.interventions ++ [g.issuedRecord bundle]) :
    RestsBy g (.evaluate bundle)
      (trimInterventions (g.effectState bundle (g.effect bundle)).interventions)

theorem evaluate_rests (g : Governor) (bundle : EvidenceBundle) :
    RestsBy g (.evaluate bundle) (g.evaluate bundle).2.state.interventions := by
  have hmoves : ∀ record moved, Moves g (.evaluate bundle) record moved → Rests record moved :=
    fun record moved => rests_of_moves nofun
  rcases evaluate_cases g bundle with ⟨_, decision, reason, detail, he⟩ |
    ⟨_, view, denial, hv, _, he⟩ | ⟨ha, hf, he⟩
  · rw [he]
    exact .rested (rests_refl _)
  · rw [he]
    have hfenced := moved_put hv (.fenced bundle view.live denial.2 (liveView_splits hv).live)
    exact .rested (hfenced.imp hmoves)
  · rw [he, commit_interventions]
    rcases effect_table ha hf with ⟨hmoved, -⟩ | ⟨hissues, htable, -⟩
    · exact .committed ha hf (hmoved.imp hmoves)
    · exact .issued hissues htable

theorem step_rests (g : Governor) {operation : Operation} (ho : inService operation) :
    RestsBy g operation (g.step operation).state.interventions := by
  have hby := step_by g operation
  generalize g.step operation = after at hby ⊢
  cases hby with
  | evaluated bundle => exact evaluate_rests g bundle
  | @policyChanged policy now hv hc =>
    have hmapped := mapped_table (fun record => Moves.revalidated policy now record hv hc)
      g.state.interventions
    exact .rested (hmapped.imp fun record moved => rests_of_moves (by nofun))
  | retired hr => exact .rested (retireIn_rests hr)
  | stopped now =>
    have hmapped := mapped_table (fun record => Moves.stopped (g := g) now record)
      g.state.interventions
    exact .rested (hmapped.imp fun record moved => rests_of_moves (by nofun))
  | restored | restoreRefused | reset => exact ho.elim
  | policyRefused | policyKept | bindRefused | bound | retireRefused =>
    exact .rested (rests_refl _)

/-! ### Runs -/

theorem idsUnique_step {operation : Operation}
    (hs : IdsUnique g.state.interventions g.state.nextInterventionGeneration)
    (ho : inService operation) (he : ¬g.exhaustsIdentities operation) :
    IdsUnique (g.step operation).state.interventions
      (g.step operation).state.nextInterventionGeneration := by
  have htable := step_table g operation
  generalize (g.step operation).state.interventions = table at htable ⊢
  generalize (g.step operation).state.nextInterventionGeneration = next at htable ⊢
  cases htable with
  | moved h => exact hs.same_ids (map_id_of_keeps (h.imp fun _ _ hm => keeps_of_moves hm))
  | committed h =>
    have hmoved := hs.same_ids (map_id_of_keeps (h.imp fun _ _ hm => keeps_of_moves hm))
    exact hmoved.subperm (trimInterventions_subperm _)
  | issued h =>
    exact (idsUnique_issued h hs fun hn => he ⟨h, hn⟩).subperm (trimInterventions_subperm _)
  | restored | reset => exact ho.elim

/-- The identity of a record was issued, and no other record has it. -/
structure Spent (g : Governor) (record : Intervention) : Prop where
  below : record.id.value < g.state.nextInterventionGeneration.value
  alone : ∀ other ∈ g.state.interventions, other.id = record.id → other = record

theorem spent_of_mem (hs : IdsUnique g.state.interventions g.state.nextInterventionGeneration)
    {record : Intervention} (hm : record ∈ g.state.interventions) : Spent g record :=
  ⟨(hs.ids record hm).2, fun _ ho hid => hs.eq_of_id_eq ho hm hid⟩

section Step

variable {operation : Operation} {record : Intervention}

theorem below_step (h : record.id.value < g.state.nextInterventionGeneration.value)
    (ho : inService operation) (he : ¬g.exhaustsIdentities operation) :
    record.id.value < (g.step operation).state.nextInterventionGeneration.value := by
  have htable := step_table g operation
  generalize (g.step operation).state.interventions = table at htable
  generalize (g.step operation).state.nextInterventionGeneration = next at htable ⊢
  cases htable with
  | moved => exact h
  | committed => exact h
  | issued hissues =>
    have hnext := (next_value_toNat fun hn => he ⟨hissues, hn⟩).2
    rw [UInt64.lt_iff_toNat_lt] at h ⊢
    omega
  | restored | reset => exact ho.elim

/-- A record an issue makes is not the spent one. -/
theorem issuedRecord_id_ne {bundle : EvidenceBundle} (h : g.Issues bundle) (hs : Spent g record) :
    (g.issuedRecord bundle).id ≠ record.id := by
  intro hid
  have hlt := hs.below
  rw [← hid, issuedRecord_id h] at hlt
  exact UInt64.lt_irrefl _ hlt

theorem spent_of_rests {table : List Intervention}
    (h : List.Forall₂ Rests g.state.interventions table) (hs : Spent g record)
    (ht : record.state.terminal) {other : Intervention} (ho : other ∈ table)
    (hid : other.id = record.id) : other = record ∧ record ∈ g.state.interventions := by
  obtain ⟨source, hsource, hrests⟩ := exists_source h ho
  obtain rfl := hs.alone source hsource (hrests.id.symm.trans hid)
  exact ⟨hrests.same ht, hsource⟩

theorem mem_of_rests {before after : List Intervention} (h : List.Forall₂ Rests before after)
    (ht : record.state.terminal) (hm : record ∈ before) : record ∈ after := by
  obtain ⟨moved, hmoved, hrests⟩ :=
    @exists_source (fun a b => Rests b a) after before h.flip record hm
  rw [← hrests.same ht]
  exact hmoved

/-- An operation in service leaves under a spent identity what was there, or nothing: it is
there after it only if it was before, and is dropped by a trim only. -/
theorem spent_step (hs : Spent g record) (ht : record.state.terminal) (ho : inService operation)
    (he : ¬g.exhaustsIdentities operation) :
    Spent (g.step operation) record ∧
      (record ∈ (g.step operation).state.interventions → record ∈ g.state.interventions) ∧
      (record ∈ g.state.interventions → record ∉ (g.step operation).state.interventions →
        g.trims operation record) := by
  have hbelow := below_step hs.below ho he
  have hby := step_rests g ho
  suffices hall : (∀ other ∈ (g.step operation).state.interventions, other.id = record.id →
      other = record ∧ record ∈ g.state.interventions) ∧
      (record ∈ g.state.interventions → record ∉ (g.step operation).state.interventions →
        g.trims operation record) from
    ⟨⟨hbelow, fun other hm hid => (hall.1 other hm hid).1⟩,
      fun hm => (hall.1 record hm rfl).2, hall.2⟩
  generalize (g.step operation).state.interventions = table at hby ⊢
  cases hby with
  | rested h =>
    exact ⟨fun other hm hid => spent_of_rests h hs ht hm hid,
      fun hm hno => absurd (mem_of_rests h ht hm) hno⟩
  | @committed bundle ha hf h =>
    exact ⟨fun other hm hid => spent_of_rests h hs ht (trimInterventions_subset _ hm) hid,
      fun hm hno => ⟨bundle, rfl, ha, hf, mem_of_rests h ht hm, hno⟩⟩
  | @issued bundle h htable =>
    refine ⟨fun other hm hid => ?_, fun hm hno => ?_⟩
    · have hmem := trimInterventions_subset _ hm
      rw [htable, List.mem_append, List.mem_singleton] at hmem
      rcases hmem with hold | rfl
      · have hsame := hs.alone other hold hid
        exact ⟨hsame, hsame ▸ hold⟩
      · exact absurd hid (issuedRecord_id_ne h hs)
    · refine ⟨bundle, rfl, h.accepts, h.unfenced, ?_, hno⟩
      rw [htable]
      exact List.mem_append_left _ hm

end Step

/-- What becomes of a terminal record over a run: under its identity there is nothing but the
record as it was, it comes back at no step and goes by a trim only, and no record is issued
under its identity. -/
structure Settled (g : Governor) (record : Intervention) (operations : List Operation) : Prop where
  same : ∀ other ∈ (Foundation.run step g operations).state.interventions,
    other.id = record.id → other = record
  gone : ∀ call ∈ Foundation.calls step g operations,
    record ∈ (call.1.step call.2).state.interventions → record ∈ call.1.state.interventions
  trimmed : ∀ call ∈ Foundation.calls step g operations, record ∈ call.1.state.interventions →
    record ∉ (call.1.step call.2).state.interventions → call.1.trims call.2 record
  fresh : ∀ call ∈ Foundation.calls step g operations, ∀ bundle, call.2 = .evaluate bundle →
    call.1.Issues bundle → (call.1.issuedRecord bundle).id ≠ record.id

/-- The operation is in service and issues nothing under the last identity. -/
def usual (g : Governor) (operation : Operation) : Prop :=
  inService operation ∧ ¬g.exhaustsIdentities operation

theorem settled_of_spent {record : Intervention} (ht : record.state.terminal)
    {operations : List Operation} (hs : Spent g record)
    (hu : ∀ call ∈ Foundation.calls step g operations, call.1.usual call.2) :
    Settled g record operations := by
  have hstep : ∀ g operation, Spent g record → g.usual operation → Spent (g.step operation) record :=
    fun g operation hs hu => (spent_step hs ht hu.1 hu.2).1
  have hcalls : ∀ call ∈ Foundation.calls step g operations, Spent call.1 record :=
    fun call hcall => Foundation.calls_invariant_of_calls hstep hs hu hcall
  have hlast : Spent (Foundation.run step g operations) record :=
    Foundation.run_invariant_of_calls hstep hs hu
  refine ⟨hlast.alone, fun call hcall => ?_, fun call hcall => ?_, fun call hcall bundle _ hi => ?_⟩
  · have hu := hu call hcall
    exact (spent_step (hcalls call hcall) ht hu.1 hu.2).2.1
  · have hu := hu call hcall
    exact (spent_step (hcalls call hcall) ht hu.1 hu.2).2.2
  · exact issuedRecord_id_ne hi (hcalls call hcall)

/-- In a run in service from a table under unique identities, which never issues under the last
one: whenever a record is terminal it is settled for the rest of the run. -/
theorem run_terminal_settled
    (hs : IdsUnique g.state.interventions g.state.nextInterventionGeneration)
    {operations : List Operation} (ho : ∀ operation ∈ operations, inService operation)
    (he : ∀ call ∈ Foundation.calls step g operations, ¬call.1.exhaustsIdentities call.2)
    {earlier later : List Operation} (hwithin : earlier ++ later <+: operations)
    {record : Intervention}
    (hm : record ∈ (Foundation.run step g earlier).state.interventions)
    (ht : record.state.terminal) : Settled (Foundation.run step g earlier) record later := by
  obtain ⟨rest, rfl⟩ := hwithin
  have hu : ∀ call ∈ Foundation.calls step g (earlier ++ later ++ rest), call.1.usual call.2 := by
    intro call hcall
    obtain ⟨pre, post, hpre, -⟩ := (Foundation.mem_calls_iff step).mp hcall
    have hmem : call.2 ∈ earlier ++ later ++ rest := by
      rw [hpre]
      exact List.mem_append_right _ List.mem_cons_self
    exact ⟨ho _ hmem, he call hcall⟩
  rw [Foundation.calls_append, Foundation.calls_append] at hu
  have hunique : IdsUnique (Foundation.run step g earlier).state.interventions
      (Foundation.run step g earlier).state.nextInterventionGeneration := by
    refine Foundation.run_invariant_of_calls
      (P := fun g => IdsUnique g.state.interventions g.state.nextInterventionGeneration)
      (fun g operation hs (hc : g.usual operation) => idsUnique_step hs hc.1 hc.2) hs
      fun call hcall => hu call ?_
    exact List.mem_append_left _ (List.mem_append_left _ hcall)
  refine settled_of_spent ht (spent_of_mem hunique hm) fun call hcall => hu call ?_
  exact List.mem_append_left _ (List.mem_append_right _ hcall)

/-- An incident window of the sample destination. -/
def incidentAt (window : UInt64) (now : Int64) : EvidenceBundle :=
  sampleBundle window now [sampleRow 1 1500, sampleRow 2 1500]

/-- An intervention is issued and retired; then another incident follows. -/
def retiredOnce : List Operation :=
  [.evaluate (incidentAt 1 1000000000), .retire ⟨1⟩ ⟨1500000000⟩ []]

/-- The record the run retires. -/
def retiredRecord : Intervention :=
  (Foundation.run step (create sampleConfig) retiredOnce).state.interventions.head
    (by decide +kernel)

/-- The retired record stays as it is while the next intervention is issued. -/
theorem run_terminal_settled_once :
    Settled (Foundation.run step (create sampleConfig) retiredOnce) retiredRecord
      [.evaluate (incidentAt 2 2000000000)] := by
  have hids : IdsUnique (create sampleConfig).state.interventions
      (create sampleConfig).state.nextInterventionGeneration := ⟨by simp [create], List.nodup_nil⟩
  have hterminal : retiredRecord.state.terminal := by decide +kernel
  have hleft : ∀ call ∈ Foundation.calls step (create sampleConfig)
      (retiredOnce ++ [.evaluate (incidentAt 2 2000000000)]),
      ¬lastIdentity call.1.state.nextInterventionGeneration := by
    decide +kernel
  refine run_terminal_settled hids (fun operation ho => ?_) (fun call hcall hlast => ?_)
    (List.prefix_refl _) (List.head_mem _) hterminal
  · simp only [retiredOnce, List.cons_append, List.nil_append, List.mem_cons, List.not_mem_nil,
      or_false] at ho
    rcases ho with rfl | rfl | rfl <;> trivial
  · have hidentity := hleft call hcall
    obtain ⟨g, operation⟩ := call
    cases operation with
    | evaluate bundle => exact hidentity hlast.2
    | _ => exact hlast.elim

/-- A retired record under identity 1, and the last identity to issue next. -/
def spentGovernor : Governor :=
  { config := sampleConfig
    state := { interventions := [{ id := ⟨1⟩, state := .retired }]
               nextInterventionGeneration := ⟨18446744073709551615⟩ } }

/-- Three incidents, the interventions of the first two retired. -/
def wrappingRun : List Operation :=
  [.evaluate (incidentAt 1 1000000000), .retire ⟨18446744073709551615⟩ ⟨1500000000⟩ [],
    .evaluate (incidentAt 2 2000000000), .retire ⟨0⟩ ⟨2500000000⟩ [],
    .evaluate (incidentAt 3 3000000000)]

/-- The third intervention is issued under the identity of the retired record. -/
theorem spent_identity_issued_again :
    ¬∀ (g : Governor) (operations : List Operation),
      IdsUnique g.state.interventions g.state.nextInterventionGeneration →
        (∀ operation ∈ operations, inService operation) →
          ∀ record ∈ g.state.interventions, record.state.terminal →
            Settled g record operations := by
  intro h
  have hids : IdsUnique spentGovernor.state.interventions
      spentGovernor.state.nextInterventionGeneration := ⟨by decide, by decide⟩
  have hservice : ∀ operation ∈ wrappingRun, inService operation := by
    intro operation ho
    simp only [wrappingRun, List.mem_cons, List.not_mem_nil, or_false] at ho
    rcases ho with rfl | rfl | rfl | rfl | rfl <;> trivial
  have hsettled := h spentGovernor wrappingRun hids hservice { id := ⟨1⟩, state := .retired }
    List.mem_cons_self (Or.inl rfl)
  have hagain : ∃ other ∈ (Foundation.run step spentGovernor wrappingRun).state.interventions,
      other.id = ⟨1⟩ ∧ other.state = .active := by
    decide +kernel
  obtain ⟨other, hm, hid, hstate⟩ := hagain
  rw [hsettled.same other hm hid] at hstate
  cases hstate

end Governor

end IncastGovernor
