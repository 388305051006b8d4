import IncastGovernor.Governor.Refusals
import IncastGovernor.Governor.Soundness

/-! Restored authority. A restore clears the binding, and only a bind sets one: until then
every window is refused. A record that was live in the restored state waits for its
revalidation; a window either finds it under its own epoch and boot or fences it. -/

namespace IncastGovernor

namespace Governor

variable {g : Governor} {bundle : EvidenceBundle}

/-! ### Until an authority is bound -/

/-- The call binds an authority. -/
def bindsAuthority (g : Governor) : Operation → Prop
  | .bindAuthority epoch boot worker lease leaseExpiry =>
    (g.bindAuthority epoch boot worker lease leaseExpiry).1 = .ok ()
  | _ => False

instance : ∀ operation : Operation, Decidable (g.bindsAuthority operation)
  | .bindAuthority epoch boot worker lease leaseExpiry =>
    inferInstanceAs (Decidable ((g.bindAuthority epoch boot worker lease leaseExpiry).1 = .ok ()))
  | .evaluate _ | .configurePolicy _ _ | .retire _ _ _ | .restoreState _ | .shutdown _ | .reset =>
    inferInstanceAs (Decidable False)

/-- The binding an operation leaves, unless it binds one: the old one or none. -/
theorem step_binding (operation : Operation) (h : ¬g.bindsAuthority operation) :
    ((g.step operation).config.epoch = g.config.epoch ∧
        (g.step operation).config.boot = g.config.boot) ∨
      (g.step operation).config.epoch = {} := by
  have hby := step_by g operation
  generalize g.step operation = after at hby ⊢
  cases hby with
  | evaluated bundle =>
    have hc := evaluate_config g bundle
    exact Or.inl ⟨congrArg GovernorConfig.epoch hc, congrArg GovernorConfig.boot hc⟩
  | bound hbound => exact absurd hbound h
  | restored => exact Or.inr rfl
  | _ => exact Or.inl ⟨rfl, rfl⟩

/-- Nothing is bound: every window is refused. -/
theorem not_accepts_of_unbound (h : g.config.epoch = {}) : ¬g.accepts bundle := by
  intro ha
  have hv := (bindingGranted_of_accepts ha).bound.1
  rw [h] at hv
  contradiction

theorem unbound_step (operation : Operation) (h : g.config.epoch = {})
    (hb : ¬g.bindsAuthority operation) : (g.step operation).config.epoch = {} := by
  rcases step_binding operation hb with hkept | hcleared
  · exact hkept.1.trans h
  · exact hcleared

theorem unbound_run {operations : List Operation} (h : g.config.epoch = {})
    (hb : ∀ call ∈ Foundation.calls step g operations, ¬call.1.bindsAuthority call.2) :
    (Foundation.run step g operations).config.epoch = {} :=
  @Foundation.run_invariant_of_calls _ _ step (fun g => g.config.epoch = {})
    (fun g operation => ¬g.bindsAuthority operation)
    (fun _ operation hs hc => unbound_step operation hs hc) g h operations hb

/-! ### A restored record -/

/-- The governor serves the epoch and boot of a record. -/
def boundTo (g : Governor) (record : Intervention) : Prop :=
  g.config.epoch.valid ∧ g.config.epoch = record.epoch ∧ g.config.boot = record.boot

instance (record : Intervention) : Decidable (g.boundTo record) := by
  delta boundTo; infer_instance

/-- A record that waits for its revalidation, or for which it came to an end. -/
def dormant (record : Intervention) : Prop :=
  record.state = .revalidating ∨ record.state = .fenced ∨ record.state = .retired

/-- The records of an identity are dormant, or were restored dead. -/
def staysDown (states : GovernorState → Prop) (restored : Intervention) (g : Governor) : Prop :=
  ∀ record ∈ g.state.interventions, sameBinding record restored →
    dormant record ∨ (¬record.live ∧ ∃ state, states state ∧ record ∈ state.interventions)

theorem boundTo_of_governs {live : Intervention} (hg : g.Governs bundle live) : g.boundTo live := by
  obtain ⟨view, hv, rfl⟩ := governs_view hg
  obtain ⟨hepoch, hboot⟩ := live_bound hg.accepts hv hg.unfenced
  exact ⟨(bindingGranted_of_accepts hg.accepts).bound.1, hepoch.symm, hboot.symm⟩

theorem boundTo_congr {a b : Intervention} (h : sameBinding a b) (hb : g.boundTo a) :
    g.boundTo b := ⟨hb.1, hb.2.1.trans h.2.1, hb.2.2.trans h.2.2⟩

/-- What an operation makes of a record that the governor is not bound to. -/
theorem moves_unbound {operation : Operation} {record moved : Intervention}
    (h : Moves g operation record moved) (hb : ¬g.boundTo record) :
    moved = record ∨ dormant moved := by
  cases h with
  | kept => exact Or.inl rfl
  | revalidated policy now =>
    by_cases hl : record.live
    · exact Or.inr (Or.inl (revalidateRecord_live policy now hl).state)
    · exact Or.inl (revalidateRecord_dead policy now hl)
  | retired id now reason _ _ hm =>
    exact Or.inr (Or.inr (Or.inr (transition_movedTo hm (by decide)).state))
  | stopped now =>
    by_cases hl : record.live
    · exact Or.inr (Or.inr (Or.inr (shutdownRecord_live now hl).state))
    · exact Or.inl (shutdownRecord_dead now hl)
  | fenced bundle _ detail =>
    exact Or.inr (Or.inr (Or.inl (fencedRecord_movedTo (g.instant bundle) detail record).state))
  | held bundle _ hg => exact absurd (boundTo_of_governs hg) hb
  | continued bundle _ hg => exact absurd (boundTo_of_governs hg) hb
  | recovered bundle _ hg => exact absurd (boundTo_of_governs hg) hb
  | relaxed bundle _ hg => exact absurd (boundTo_of_governs hg) hb
  | unfounded bundle _ hg => exact absurd (boundTo_of_governs hg) hb

theorem staysDown_moved {states : GovernorState → Prop} {restored : Intervention}
    {operation : Operation} {table : List Intervention} (hs : staysDown states restored g)
    (hb : ¬g.boundTo restored) (h : List.Forall₂ (Moves g operation) g.state.interventions table) :
    ∀ record ∈ table, sameBinding record restored →
      dormant record ∨ (¬record.live ∧ ∃ state, states state ∧ record ∈ state.interventions) := by
  intro moved hm hsame
  obtain ⟨record, hrecord, hmoves⟩ := exists_source h hm
  have hbinding := moves_binding hmoves
  have hsource : sameBinding record restored :=
    ⟨hbinding.1.symm.trans hsame.1, hbinding.2.1.symm.trans hsame.2.1,
      hbinding.2.2.symm.trans hsame.2.2⟩
  have hnot : ¬g.boundTo record := fun hr => hb (boundTo_congr hsource hr)
  rcases moves_unbound hmoves hnot with rfl | hdormant
  · exact hs moved hrecord hsame
  · exact Or.inl hdormant

/-- While the governor serves another epoch or boot, a restored record stays down. -/
theorem staysDown_step {states : GovernorState → Prop} {restored : Intervention}
    (operation : Operation) (hs : staysDown states restored g) (hb : ¬g.boundTo restored)
    (hstates : ∀ state, operation = .restoreState state → states state) :
    staysDown states restored (g.step operation) := by
  have htable := step_table g operation
  unfold staysDown
  generalize (g.step operation).state.interventions = table at htable ⊢
  generalize (g.step operation).state.nextInterventionGeneration = next at htable
  cases htable with
  | moved h => exact staysDown_moved hs hb h
  | committed h =>
    intro record hm
    exact staysDown_moved hs hb h record (trimInterventions_subset _ hm)
  | @issued bundle h =>
    intro record hm hsame
    rcases List.mem_append.mp (trimInterventions_subset _ hm) with hold | hnew
    · exact hs record hold hsame
    · have hcreated := createdRecord_binding bundle g.config.policy (g.instant bundle)
        (g.synthesis bundle).intent
      have hbound := bindingGranted_of_accepts h.accepts
      rw [List.mem_singleton.mp hnew] at hsame
      refine absurd ⟨hbound.bound.1, ?_, ?_⟩ hb
      · exact (hcreated.1.trans hbound.epoch).symm.trans hsame.2.1
      · exact (hcreated.2.1.trans hbound.boot).symm.trans hsame.2.2
  | @restored state h =>
    intro moved hm _
    obtain ⟨record, hrecord, rfl⟩ := List.mem_map.mp hm
    by_cases hl : record.live
    · exact Or.inl (Or.inl (restoreRecord_live state.lastEvaluation hl).state)
    · rw [restoreRecord_dead state.lastEvaluation hl]
      exact Or.inr ⟨hl, state, hstates state rfl, hrecord⟩
  | reset =>
    intro record hm
    cases hm

theorem staysDown_run {states : GovernorState → Prop} {restored : Intervention}
    {operations : List Operation} (hs : staysDown states restored g)
    (hstates : ∀ state, .restoreState state ∈ operations → states state)
    (hb : ∀ call ∈ Foundation.calls step g operations, ¬call.1.boundTo restored) :
    staysDown states restored (Foundation.run step g operations) := by
  induction operations generalizing g with
  | nil => exact hs
  | cons operation rest ih =>
    rw [Foundation.calls_cons] at hb
    apply ih
    · apply staysDown_step operation hs (hb _ List.mem_cons_self)
      intro state he
      exact hstates state (he ▸ List.mem_cons_self)
    · exact fun state hm => hstates state (List.mem_cons_of_mem _ hm)
    · exact fun call hc => hb call (List.mem_cons_of_mem _ hc)

/-- The table stays bounded over a run. -/
theorem tableBounded_run (hg : tableBounded g) (operations : List Operation) :
    tableBounded (Foundation.run step g operations) :=
  Foundation.run_invariant tableBounded_step hg operations

/-- An authorized decision names a record of the bound authority, never one of another. -/
structure NamesAnother (g : Governor) (bundle : EvidenceBundle) (restored : Intervention) :
    Prop where
  named : ∃ record ∈ (g.evaluate bundle).2.state.interventions,
    record.id = (g.evaluate bundle).1.intervention ∧ ¬sameBinding record restored
  other : (∀ record ∈ (g.evaluate bundle).2.state.interventions, record.id = restored.id →
    sameBinding record restored) → (g.evaluate bundle).1.intervention ≠ restored.id

theorem namesAnother_of_authorized {restored : Intervention} (hg : tableBounded g)
    (hb : ¬g.boundTo restored) (ha : (g.evaluate bundle).1.authorized) :
    NamesAnother g bundle restored := by
  obtain ⟨record, hrecord, hid, hepoch, hboot, _⟩ := namesBoundRecord_of_authorized hg ha
  have hvalid := (bindingGranted_of_accepts (committed_of_authorized ha).1).bound.1
  have hnot : ¬sameBinding record restored := fun hsame =>
    hb ⟨hvalid, hepoch.symm.trans hsame.2.1, hboot.symm.trans hsame.2.2⟩
  refine ⟨⟨record, hrecord, hid, hnot⟩, fun hunique he => ?_⟩
  exact hnot (hunique record hrecord (hid.trans he))

/-! ### After a restore -/

/-- A restore of a valid state grants nothing: no window is accepted before a bind, and a
record restored live is down, and stands behind no authorized decision, for as long as the
governor serves another epoch or boot. -/
theorem restart_restores_no_authority (g : Governor) (state : GovernorState)
    (h : state.validate = .ok ()) (operations : List Operation) :
    let restart := (g.restoreState state).2
    let later := Foundation.run step restart operations
    ((∀ call ∈ Foundation.calls step restart operations, ¬call.1.bindsAuthority call.2) →
        ∀ bundle, (later.evaluate bundle).1.outcome = .refused) ∧
      ∀ restored ∈ state.interventions, restored.live →
        (∀ call ∈ Foundation.calls step restart operations, ¬call.1.boundTo restored) →
          staysDown (fun other => other = state ∨ .restoreState other ∈ operations) restored later ∧
            (¬later.boundTo restored → ∀ bundle, (later.evaluate bundle).1.authorized →
              NamesAnother later bundle restored) := by
  intro restart later
  have hrestart : restart = { g.unbound with state := restored state } := by
    have hby := restoreState_by g state
    show (g.restoreState state).2 = _
    generalize g.restoreState state = result at hby ⊢
    cases hby with
    | refused error he =>
      rw [h] at he
      cases he
    | restored => rfl
  have hbounded : tableBounded restart := by
    rw [hrestart]
    unfold tableBounded restored
    rw [List.length_map]
    exact validate_table_le h
  refine ⟨fun hb bundle => ?_, fun record _ _ hb => ⟨?_, fun hnot bundle ha => ?_⟩⟩
  · rw [outcome_refused_iff]
    exact not_accepts_of_unbound (unbound_run (by rw [hrestart]; rfl) hb)
  · refine staysDown_run ?_ (fun other ho => Or.inr ho) hb
    intro moved hm _
    rw [hrestart] at hm
    obtain ⟨source, hsource, rfl⟩ := List.mem_map.mp hm
    by_cases hl : source.live
    · exact Or.inl (Or.inl (restoreRecord_live state.lastEvaluation hl).state)
    · rw [restoreRecord_dead state.lastEvaluation hl]
      exact Or.inr ⟨hl, state, Or.inl rfl, hsource⟩
  · exact namesAnother_of_authorized (tableBounded_run hbounded operations) hnot ha

/-- The state an incident leaves: one active intervention. -/
def incidentState : GovernorState := ((create sampleConfig).evaluate incidentWindow).2.state

/-- The next incident window, of another epoch. -/
def reboundWindow : EvidenceBundle :=
  { sampleBundle 2 1200000000 [sampleRow 1 1500, sampleRow 2 1500] with epoch := ⟨2⟩ }

/-- The incident again under another epoch: the restored record is down afterwards. -/
theorem restart_restores_no_authority_incident :
    (∀ bundle, (((create sampleConfig).restoreState incidentState).2.evaluate bundle).1.outcome =
        .refused) ∧
      ∀ restored ∈ incidentState.interventions, restored.live →
        let operations : List Operation :=
          [.bindAuthority ⟨2⟩ ⟨1⟩ ⟨1⟩ ⟨1⟩ ⟨9000000000⟩, .evaluate reboundWindow]
        staysDown (fun other => other = incidentState ∨ .restoreState other ∈ operations) restored
          (Foundation.run step ((create sampleConfig).restoreState incidentState).2 operations) := by
  have hvalid : incidentState.validate = .ok () := by decide +kernel
  refine ⟨?_, fun restored hm hl => ?_⟩
  · apply (restart_restores_no_authority (create sampleConfig) incidentState hvalid []).1
    intro call hc
    cases hc
  · intro operations
    refine ((restart_restores_no_authority (create sampleConfig) incidentState hvalid
      operations).2 restored hm hl fun call hc => ?_).1
    have hother : ∀ call ∈ Foundation.calls step
        ((create sampleConfig).restoreState incidentState).2 operations,
        ∀ restored ∈ incidentState.interventions, ¬call.1.boundTo restored := by decide +kernel
    exact hother call hc restored hm

end Governor

end IncastGovernor
