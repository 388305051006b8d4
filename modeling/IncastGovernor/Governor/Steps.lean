import IncastGovernor.Governor.Window

/-! What each operation can do: it is refused and changes nothing, or it takes effect in one
known way. The invariants of a run are derived from these. -/

namespace IncastGovernor

namespace Governor

variable (g : Governor)

theorem evaluate_config (g : Governor) (bundle : EvidenceBundle) :
    (g.evaluate bundle).2.config = g.config := by
  rcases evaluate_cases g bundle with ⟨_, decision, reason, detail, he⟩ | ⟨_, view, denial, _, _, he⟩ |
    ⟨_, _, he⟩ <;> rw [he] <;> rfl

/-! ### Policies -/

/-- The policy is another one, or another generation, than the state records. -/
def policyChanged (policy : GovernorPolicy) : Prop :=
  g.state.policyGeneration ≠ policy.generation ∨ g.state.policy ≠ policy.id

instance (policy : GovernorPolicy) : Decidable (g.policyChanged policy) := by
  delta policyChanged; infer_instance

/-- The governor under a policy it records already. -/
def underPolicy (policy : GovernorPolicy) : Governor :=
  { g with
    config := { g.config with policy }
    state := { g.state with policy := policy.id, policyGeneration := policy.generation } }

/-- The governor under another policy: every live record has to be revalidated. -/
def underChangedPolicy (policy : GovernorPolicy) (now : Timestamp) : Governor :=
  { g.underPolicy policy with
    state := { (g.underPolicy policy).state with
      interventions := g.state.interventions.map (revalidateRecord policy now)
      requiresRevalidation := true } }

inductive ConfiguredBy (policy : GovernorPolicy) (now : Timestamp) : Status × Governor → Prop
  | refused (error : Error) (h : policy.validate = .error error) :
    ConfiguredBy policy now (.error error, g)
  | kept (h : policy.validate = .ok ()) (hc : ¬g.policyChanged policy) :
    ConfiguredBy policy now (.ok (), g.underPolicy policy)
  | changed (h : policy.validate = .ok ()) (hc : g.policyChanged policy) :
    ConfiguredBy policy now (.ok (), g.underChangedPolicy policy now)

theorem configurePolicy_by (policy : GovernorPolicy) (now : Timestamp) :
    ConfiguredBy g policy now (g.configurePolicy policy now) := by
  unfold configurePolicy
  cases hv : policy.validate with
  | error error => exact .refused error hv
  | ok u =>
    simp only
    split_ifs with hc
    · exact .changed hv hc
    · exact .kept hv hc

/-! ### Bindings -/

/-- The governor with another binding. -/
def bound (epoch : EpochId) (boot : BootIncarnation) (worker : WorkerId) (lease : LeaseId)
    (leaseExpiry : Timestamp) : Governor :=
  { g with
    config := { g.config with epoch, boot, worker, lease, leaseExpiry }
    state := { g.state with epoch, boot } }

inductive BoundBy (epoch : EpochId) (boot : BootIncarnation) (worker : WorkerId)
    (lease : LeaseId) (leaseExpiry : Timestamp) : Status × Governor → Prop
  | refused (error : Error) : BoundBy epoch boot worker lease leaseExpiry (.error error, g)
  | bound : BoundBy epoch boot worker lease leaseExpiry
      (.ok (), g.bound epoch boot worker lease leaseExpiry)

theorem bindAuthority_by (epoch : EpochId) (boot : BootIncarnation) (worker : WorkerId)
    (lease : LeaseId) (leaseExpiry : Timestamp) :
    BoundBy g epoch boot worker lease leaseExpiry
      (g.bindAuthority epoch boot worker lease leaseExpiry) := by
  unfold bindAuthority
  simp only
  split
  · exact .refused _
  · exact .bound

/-! ### Restored states -/

/-- The state a restore makes of the one it is given. -/
def restored (state : GovernorState) : GovernorState :=
  { state with
    epoch := {}
    boot := {}
    recovery := {}
    incidentStreak := 0
    cleanStreak := 0
    requiresRevalidation := true
    restoredFromDurable := true
    restoreCount := state.restoreCount + 1
    interventions := state.interventions.map (restoreRecord state.lastEvaluation)
    generation := state.generation.next }

/-- The governor without a binding. -/
def unbound : Governor :=
  { g with config := { g.config with
      epoch := {}, boot := {}, worker := {}, lease := {}, leaseExpiry := {} } }

inductive RestoredBy (state : GovernorState) : Status × Governor → Prop
  | refused (error : Error) (h : state.validate = .error error) :
    RestoredBy state (.error error, g)
  | restored (h : state.validate = .ok ()) :
    RestoredBy state (.ok (), { g.unbound with state := restored state })

theorem restoreState_by (state : GovernorState) : RestoredBy g state (g.restoreState state) := by
  unfold restoreState
  cases hv : state.validate with
  | error error => exact .refused error hv
  | ok u => exact .restored hv

/-! ### Operations -/

/-- The governor an operation leaves. -/
inductive StepBy : Operation → Governor → Prop
  | evaluated (bundle : EvidenceBundle) : StepBy (.evaluate bundle) (g.evaluate bundle).2
  | policyRefused {policy : GovernorPolicy} {now : Timestamp} (error : Error)
    (h : policy.validate = .error error) : StepBy (.configurePolicy policy now) g
  | policyKept {policy : GovernorPolicy} {now : Timestamp} (h : policy.validate = .ok ())
    (hc : ¬g.policyChanged policy) : StepBy (.configurePolicy policy now) (g.underPolicy policy)
  | policyChanged {policy : GovernorPolicy} {now : Timestamp} (h : policy.validate = .ok ())
    (hc : g.policyChanged policy) :
    StepBy (.configurePolicy policy now) (g.underChangedPolicy policy now)
  | bindRefused {epoch : EpochId} {boot : BootIncarnation} {worker : WorkerId} {lease : LeaseId}
    {leaseExpiry : Timestamp} : StepBy (.bindAuthority epoch boot worker lease leaseExpiry) g
  | bound {epoch : EpochId} {boot : BootIncarnation} {worker : WorkerId} {lease : LeaseId}
    {leaseExpiry : Timestamp} (h : (g.bindAuthority epoch boot worker lease leaseExpiry).1 = .ok ()) :
    StepBy (.bindAuthority epoch boot worker lease leaseExpiry)
      (g.bound epoch boot worker lease leaseExpiry)
  | retireRefused {id : InterventionId} {now : Timestamp} {reason : Text} :
    StepBy (.retire id now reason) g
  | retired {id : InterventionId} {now : Timestamp} {reason : Text} {table : List Intervention}
    (h : retireIn id now reason g.state.interventions = .ok table) :
    StepBy (.retire id now reason) { g with
      state := { g.state with interventions := table, generation := g.state.generation.next } }
  | restoreRefused {state : GovernorState} (error : Error) (h : state.validate = .error error) :
    StepBy (.restoreState state) g
  | restored {state : GovernorState} (h : state.validate = .ok ()) :
    StepBy (.restoreState state) { g.unbound with state := restored state }
  | stopped (now : Timestamp) : StepBy (.shutdown now) (g.shutdown now).2
  | reset : StepBy .reset (create g.config)

theorem step_by (operation : Operation) : StepBy g operation (g.step operation) := by
  cases operation with
  | evaluate bundle => exact .evaluated bundle
  | configurePolicy policy now =>
    have hby := configurePolicy_by g policy now
    show StepBy g _ (g.configurePolicy policy now).2
    generalize g.configurePolicy policy now = result at hby ⊢
    cases hby with
    | refused error h => exact .policyRefused error h
    | kept h hc => exact .policyKept h hc
    | changed h hc => exact .policyChanged h hc
  | bindAuthority epoch boot worker lease leaseExpiry =>
    have hby := bindAuthority_by g epoch boot worker lease leaseExpiry
    show StepBy g _ (g.bindAuthority epoch boot worker lease leaseExpiry).2
    generalize hresult : g.bindAuthority epoch boot worker lease leaseExpiry = result at hby ⊢
    cases hby with
    | refused => exact .bindRefused
    | bound => exact .bound (congrArg Prod.fst hresult)
  | retire id now reason =>
    show StepBy g _ (g.retire id now reason).2
    unfold retire
    cases hr : retireIn id now reason g.state.interventions with
    | error e => exact .retireRefused
    | ok table => exact .retired hr
  | restoreState state =>
    have hby := restoreState_by g state
    show StepBy g _ (g.restoreState state).2
    generalize g.restoreState state = result at hby ⊢
    cases hby with
    | refused error h => exact .restoreRefused error h
    | restored h => exact .restored h
  | shutdown now => exact .stopped now
  | reset => exact .reset

/-! ### The binding of a record -/

/-- A record with the identity and the binding of another. -/
def sameBinding (a b : Intervention) : Prop := a.id = b.id ∧ a.epoch = b.epoch ∧ a.boot = b.boot

theorem tryTransition_binding (live : Intervention) (target : InterventionState) (now : Timestamp)
    (detail : Text) : sameBinding (tryTransition live target now detail) live :=
  have h := tryTransition_sameRecord live target now detail
  ⟨h.id, h.epoch, h.boot⟩

theorem heldRecord_binding (now : Timestamp) (live : Intervention) :
    sameBinding (heldRecord now live) live := ⟨rfl, rfl, rfl⟩

theorem continuedRecord_binding (now : Timestamp) (intent : MitigationIntent) (live : Intervention) :
    sameBinding (continuedRecord now intent live) live := by
  have h : sameBinding (reactivatedRecord now live) live := by
    unfold reactivatedRecord
    split_ifs
    · exact tryTransition_binding live _ now _
    · exact tryTransition_binding live _ now _
    · exact ⟨rfl, rfl, rfl⟩
  exact h

theorem recoveredRecord_binding (now : Timestamp) (intent : MitigationIntent) (live : Intervention) :
    sameBinding (recoveredRecord now intent live) live := by
  have h1 := tryTransition_binding live .relaxing now (ascii "recovery retired")
  have h2 := tryTransition_binding
    { tryTransition live .relaxing now (ascii "recovery retired") with
      state := InterventionState.relaxing } .retired now (ascii "recovery complete")
  exact ⟨h2.1.trans h1.1, h2.2.1.trans h1.2.1, h2.2.2.trans h1.2.2⟩

theorem relaxedRecord_binding (now : Timestamp) (intent : MitigationIntent) (live : Intervention) :
    sameBinding (relaxedRecord now intent live) live := by
  unfold relaxedRecord
  split_ifs
  · exact tryTransition_binding live .relaxing now _
  · exact ⟨rfl, rfl, rfl⟩

theorem createdRecord_binding (bundle : EvidenceBundle) (policy : GovernorPolicy) (now : Timestamp)
    (intent : MitigationIntent) :
    (createdRecord bundle policy now intent).epoch = bundle.epoch ∧
      (createdRecord bundle policy now intent).boot = bundle.boot ∧
      (createdRecord bundle policy now intent).state = .active := by
  have h : ∀ proposed : Intervention,
      sameBinding (tryTransition (tryTransition proposed .authorized now []) .active now [])
        proposed := by
    intro proposed
    have h1 := tryTransition_binding proposed .authorized now []
    have h2 := tryTransition_binding (tryTransition proposed .authorized now []) .active now []
    exact ⟨h2.1.trans h1.1, h2.2.1.trans h1.2.1, h2.2.2.trans h1.2.2⟩
  exact ⟨(h _).2.1, (h _).2.2, rfl⟩

/-- A record moved to a state, with all it stands for. -/
structure MovedTo (target : InterventionState) (record moved : Intervention) : Prop where
  same : moved.SameRecord record
  state : moved.state = target
  refusalDetail : moved.refusalDetail = record.refusalDetail

theorem MovedTo.binding {target : InterventionState} {record moved : Intervention}
    (h : MovedTo target record moved) : sameBinding moved record :=
  ⟨h.same.id, h.same.epoch, h.same.boot⟩

theorem transition_movedTo {record moved : Intervention} {target : InterventionState}
    {now : Timestamp} {detail : Text} (h : transition record target now detail = .ok moved)
    (hr : target ≠ .refused) : MovedTo target record moved := by
  obtain ⟨hsame, hstate⟩ := transition_sameRecord h
  refine ⟨hsame, hstate, ?_⟩
  unfold transition at h
  by_cases hl : isLegalTransition record.state target
  · rw [if_neg (not_not.mpr hl)] at h
    rw [← Except.ok.inj h]
    exact if_neg hr
  · rw [if_pos hl] at h
    contradiction

theorem fencedRecord_movedTo (now : Timestamp) (detail : Text) (live : Intervention) :
    MovedTo .fenced live (fencedRecord now detail live) := by
  unfold fencedRecord
  cases hm : transition live .fenced live.updatedAt detail with
  | ok moved => exact transition_movedTo hm (by decide)
  | error e => exact ⟨⟨rfl, rfl, rfl, rfl, rfl, rfl, rfl⟩, rfl, rfl⟩

section Mapped

variable {record : Intervention} (policy : GovernorPolicy) (now : Timestamp)

theorem revalidateRecord_dead (hl : ¬record.live) : revalidateRecord policy now record = record :=
  if_pos hl

theorem revalidateRecord_live (hl : record.live) :
    MovedTo .revalidating record (revalidateRecord policy now record) := by
  unfold revalidateRecord
  rw [if_neg (not_not.mpr hl)]
  simp only
  split
  · rename_i moved hm
    obtain ⟨hsame, hstate, hdetail⟩ := transition_movedTo hm (by decide)
    exact ⟨⟨hsame.id, hsame.generation, hsame.intent, hsame.epoch, hsame.boot, hsame.expiresAt,
      hsame.appliedReductionBp⟩, hstate, hdetail⟩
  · exact ⟨⟨rfl, rfl, rfl, rfl, rfl, rfl, rfl⟩, rfl, rfl⟩

theorem shutdownRecord_dead (hl : ¬record.live) : shutdownRecord now record = record := if_pos hl

theorem shutdownRecord_live (hl : record.live) :
    MovedTo .retired record (shutdownRecord now record) := by
  unfold shutdownRecord
  rw [if_neg (not_not.mpr hl)]
  cases hm : transition record .retired now (ascii "governor shutdown") with
  | ok moved => exact transition_movedTo hm (by decide)
  | error e => exact ⟨⟨rfl, rfl, rfl, rfl, rfl, rfl, rfl⟩, rfl, rfl⟩

theorem restoreRecord_dead (hl : ¬record.live) : restoreRecord now record = record := if_pos hl

theorem restoreRecord_live (hl : record.live) :
    MovedTo .revalidating record (restoreRecord now record) := by
  unfold restoreRecord
  rw [if_neg (not_not.mpr hl)]
  exact ⟨⟨rfl, rfl, rfl, rfl, rfl, rfl, rfl⟩, rfl, rfl⟩

end Mapped

/-! ### Records -/

/-- A live record that an accepted, unfenced window finds. -/
structure Governs (bundle : EvidenceBundle) (live : Intervention) : Prop where
  accepts : g.accepts bundle
  unfenced : g.liveFence bundle = none
  live : g.liveRecord bundle = some live

/-- What an operation does to a record that stays in the table. -/
inductive Moves : Operation → Intervention → Intervention → Prop
  | kept (operation : Operation) (record : Intervention) : Moves operation record record
  | revalidated (policy : GovernorPolicy) (now : Timestamp) (record : Intervention)
    (hv : policy.validate = .ok ()) (hc : g.policyChanged policy) :
    Moves (.configurePolicy policy now) record (revalidateRecord policy now record)
  | retired (id : InterventionId) (now : Timestamp) (reason : Text) (record moved : Intervention)
    (hm : transition record .retired now reason = .ok moved) :
    Moves (.retire id now reason) record moved
  | stopped (now : Timestamp) (record : Intervention) :
    Moves (.shutdown now) record (shutdownRecord now record)
  | fenced (bundle : EvidenceBundle) (live : Intervention) (detail : Text) (hl : live.live) :
    Moves (.evaluate bundle) live (fencedRecord (g.instant bundle) detail live)
  | held (bundle : EvidenceBundle) (live : Intervention) (hg : g.Governs bundle live)
    (hh : holds (g.windowClassification bundle) live) :
    Moves (.evaluate bundle) live (heldRecord (g.instant bundle) live)
  | continued (bundle : EvidenceBundle) (live : Intervention) (hg : g.Governs bundle live)
    (ha : g.actsOnIncident bundle) :
    Moves (.evaluate bundle) live
      (continuedRecord (g.instant bundle) (g.synthesis bundle).intent live)
  | recovered (bundle : EvidenceBundle) (live : Intervention) (hg : g.Governs bundle live)
    (hk : (g.windowClassification bundle).kind = .recovery)
    (ha : (g.synthesis bundle).authority.interventionAuthorized = true)
    (hi : ¬(g.synthesis bundle).intent.active) :
    Moves (.evaluate bundle) live
      (recoveredRecord (g.instant bundle) (g.synthesis bundle).intent live)
  | relaxed (bundle : EvidenceBundle) (live : Intervention) (hg : g.Governs bundle live)
    (hk : (g.windowClassification bundle).kind = .recovery)
    (ha : (g.synthesis bundle).authority.interventionAuthorized = true)
    (hi : (g.synthesis bundle).intent.active) :
    Moves (.evaluate bundle) live (relaxedRecord (g.instant bundle) (g.synthesis bundle).intent live)
  | unfounded (bundle : EvidenceBundle) (live : Intervention) (hg : g.Governs bundle live) :
    Moves (.evaluate bundle) live (unfoundedRecord (g.instant bundle) live)

/-- A window that issues an intervention. -/
structure Issues (bundle : EvidenceBundle) : Prop where
  accepts : g.accepts bundle
  unfenced : g.liveFence bundle = none
  vacant : g.liveView = none
  acts : g.actsOnIncident bundle

def issuedRecord (bundle : EvidenceBundle) : Intervention :=
  createdRecord bundle g.config.policy (g.instant bundle) (g.synthesis bundle).intent

/-- The table an operation leaves, and the generation it leaves for the next record. -/
inductive TableBy : Operation → List Intervention → InterventionGeneration → Prop
  | moved {operation : Operation} {table : List Intervention}
    (h : List.Forall₂ (Moves g operation) g.state.interventions table) :
    TableBy operation table g.state.nextInterventionGeneration
  | committed {bundle : EvidenceBundle} {table : List Intervention}
    (h : List.Forall₂ (Moves g (.evaluate bundle)) g.state.interventions table) :
    TableBy (.evaluate bundle) (trimInterventions table) g.state.nextInterventionGeneration
  | issued {bundle : EvidenceBundle} (h : g.Issues bundle) :
    TableBy (.evaluate bundle)
      (trimInterventions (g.state.interventions ++ [g.issuedRecord bundle]))
      g.state.nextInterventionGeneration.next
  | restored {state : GovernorState} (h : state.validate = .ok ()) :
    TableBy (.restoreState state) (state.interventions.map (restoreRecord state.lastEvaluation))
      state.nextInterventionGeneration
  | reset : TableBy .reset [] ⟨1⟩

variable {g}

theorem kept_table (operation : Operation) (table : List Intervention) :
    List.Forall₂ (Moves g operation) table table :=
  List.forall₂_same.mpr fun record _ => .kept operation record

/-- A record of a table comes from one of the table it is related to. -/
theorem exists_source {R : Intervention → Intervention → Prop} {before after : List Intervention}
    (h : List.Forall₂ R before after) {moved : Intervention} (hm : moved ∈ after) :
    ∃ record ∈ before, R record moved := by
  induction h with
  | nil => cases hm
  | cons hfirst _ ih =>
    rcases List.mem_cons.mp hm with rfl | hrest
    · exact ⟨_, List.mem_cons_self, hfirst⟩
    · obtain ⟨record, hrecord, hmoves⟩ := ih hrest
      exact ⟨record, List.mem_cons_of_mem _ hrecord, hmoves⟩

/-- An operation never gives a record another identity or binding. -/
theorem moves_binding {operation : Operation} {record moved : Intervention}
    (h : Moves g operation record moved) : sameBinding moved record := by
  cases h with
  | kept => exact ⟨rfl, rfl, rfl⟩
  | revalidated policy now =>
    by_cases hl : record.live
    · exact (revalidateRecord_live policy now hl).binding
    · rw [revalidateRecord_dead policy now hl]
      exact ⟨rfl, rfl, rfl⟩
  | retired id now reason _ _ hm => exact (transition_movedTo hm (by decide)).binding
  | stopped now =>
    by_cases hl : record.live
    · exact (shutdownRecord_live now hl).binding
    · rw [shutdownRecord_dead now hl]
      exact ⟨rfl, rfl, rfl⟩
  | fenced bundle _ detail => exact (fencedRecord_movedTo (g.instant bundle) detail record).binding
  | held => exact heldRecord_binding _ _
  | continued => exact continuedRecord_binding _ _ _
  | recovered => exact recoveredRecord_binding _ _ _
  | relaxed => exact relaxedRecord_binding _ _ _
  | unfounded bundle =>
    exact tryTransition_binding record .retired (g.instant bundle)
      (ascii "revalidation found no incident")

theorem governs_view {bundle : EvidenceBundle} {live : Intervention} (h : g.Governs bundle live) :
    ∃ view, g.liveView = some view ∧ view.live = live :=
  view_of_liveRecord h.unfenced h.live

theorem governs_live {bundle : EvidenceBundle} {live : Intervention} (h : g.Governs bundle live) :
    live.live := by
  obtain ⟨view, hv, rfl⟩ := governs_view h
  exact (liveView_splits hv).live

theorem not_live_of_retired {record : Intervention} (h : record.state = .retired) :
    ¬record.live := by
  unfold Intervention.live
  rw [h]
  decide

/-- No operation brings a record back to life. -/
theorem live_of_moves {operation : Operation} {record moved : Intervention}
    (h : Moves g operation record moved) (hm : moved.live) : record.live := by
  cases h with
  | kept => exact hm
  | revalidated policy now =>
    by_contra hl
    rw [revalidateRecord_dead policy now hl] at hm
    exact hl hm
  | retired id now reason _ _ ht =>
    exact absurd hm (not_live_of_retired (transition_movedTo ht (by decide)).state)
  | stopped now =>
    by_contra hl
    rw [shutdownRecord_dead now hl] at hm
    exact hl hm
  | fenced _ _ _ hl => exact hl
  | held _ _ hg => exact governs_live hg
  | continued _ _ hg => exact governs_live hg
  | recovered _ _ hg => exact governs_live hg
  | relaxed _ _ hg => exact governs_live hg
  | unfounded _ _ hg => exact governs_live hg

/-- A table with the live record moved. -/
theorem moved_put {view : LiveView} (hv : g.liveView = some view) {operation : Operation}
    {record : Intervention} (h : Moves g operation view.live record) :
    List.Forall₂ (Moves g operation) g.state.interventions (view.put record) := by
  rw [(liveView_splits hv).table]
  unfold LiveView.put
  apply List.rel_append
  · exact kept_table operation view.before
  · exact List.Forall₂.cons h (kept_table operation view.after)

theorem moved_putLive {operation : Operation} {bundle : EvidenceBundle} {live record : Intervention}
    (hf : g.liveFence bundle = none) (hl : g.liveRecord bundle = some live)
    (h : Moves g operation live record) :
    List.Forall₂ (Moves g operation) g.state.interventions (g.putLive record) := by
  obtain ⟨view, hv, rfl⟩ := view_of_liveRecord hf hl
  rw [putLive_eq hv]
  exact moved_put hv h

theorem countedState_next (g : Governor) (bundle : EvidenceBundle) :
    (g.countedState bundle).nextInterventionGeneration = g.state.nextInterventionGeneration := by
  unfold countedState
  simp only
  split_ifs <;> rfl

theorem effectState_next (g : Governor) (bundle : EvidenceBundle) (effect : Effect) :
    (g.effectState bundle effect).nextInterventionGeneration =
      match effect with
      | .issue _ => g.state.nextInterventionGeneration.next
      | _ => g.state.nextInterventionGeneration := by
  rw [← countedState_next g bundle]
  cases effect with
  | noAction live => cases live <;> rfl
  | _ => rfl

/-- The table an effect makes of an accepted, unfenced window: moved, or with a new record. -/
theorem effect_table {bundle : EvidenceBundle} (h : g.accepts bundle)
    (hf : g.liveFence bundle = none) :
    (List.Forall₂ (Moves g (.evaluate bundle)) g.state.interventions
        (g.effectState bundle (g.effect bundle)).interventions ∧
      (g.effectState bundle (g.effect bundle)).nextInterventionGeneration =
        g.state.nextInterventionGeneration) ∨
    g.Issues bundle ∧
      (g.effectState bundle (g.effect bundle)).interventions =
        g.state.interventions ++ [g.issuedRecord bundle] ∧
      (g.effectState bundle (g.effect bundle)).nextInterventionGeneration =
        g.state.nextInterventionGeneration.next := by
  rw [effectState_interventions, effectState_next]
  have hby := effect_by g bundle
  generalize g.effect bundle = effect at hby ⊢
  cases hby with
  | hold live hl hh => exact Or.inl ⟨moved_putLive hf hl (.held bundle live ⟨h, hf, hl⟩ hh), rfl⟩
  | issue hl ha => exact Or.inr ⟨⟨h, hf, (liveRecord_eq_none hf).mp hl, ha⟩, rfl, rfl⟩
  | carryOn live hl _ ha =>
    exact Or.inl ⟨moved_putLive hf hl (.continued bundle live ⟨h, hf, hl⟩ ha), rfl⟩
  | recover live hl hk ha hi =>
    exact Or.inl ⟨moved_putLive hf hl (.recovered bundle live ⟨h, hf, hl⟩ hk ha hi), rfl⟩
  | relax live hl hk ha hi =>
    exact Or.inl ⟨moved_putLive hf hl (.relaxed bundle live ⟨h, hf, hl⟩ hk ha hi), rfl⟩
  | retireUnfounded live hl =>
    exact Or.inl ⟨moved_putLive hf hl (.unfounded bundle live ⟨h, hf, hl⟩), rfl⟩
  | keep live hl => exact Or.inl ⟨moved_putLive hf hl (.kept _ live), rfl⟩
  | idle => exact Or.inl ⟨kept_table _ _, rfl⟩

theorem commit_table {bundle : EvidenceBundle} (h : g.accepts bundle)
    (hf : g.liveFence bundle = none) :
    TableBy g (.evaluate bundle) (g.commit bundle (g.effect bundle)).2.state.interventions
      (g.commit bundle (g.effect bundle)).2.state.nextInterventionGeneration := by
  have hnext : (g.commit bundle (g.effect bundle)).2.state.nextInterventionGeneration =
      (g.effectState bundle (g.effect bundle)).nextInterventionGeneration := rfl
  rw [commit_interventions, hnext]
  rcases effect_table h hf with ⟨hmoved, hkept⟩ | ⟨hissues, htable, hissued⟩
  · rw [hkept]
    exact .committed hmoved
  · rw [htable, hissued]
    exact .issued hissues

theorem evaluate_table (g : Governor) (bundle : EvidenceBundle) :
    TableBy g (.evaluate bundle) (g.evaluate bundle).2.state.interventions
      (g.evaluate bundle).2.state.nextInterventionGeneration := by
  rcases evaluate_cases g bundle with ⟨_, decision, reason, detail, he⟩ |
    ⟨_, view, denial, hv, _, he⟩ | ⟨ha, hf, he⟩
  · rw [he]
    exact .moved (kept_table _ _)
  · have hnext : (g.fence bundle view denial.1 denial.2).2.state.nextInterventionGeneration =
        g.state.nextInterventionGeneration := countedState_next g bundle
    rw [he, hnext]
    exact .moved (moved_put hv (.fenced bundle view.live denial.2 (liveView_splits hv).live))
  · rw [he]
    exact commit_table ha hf

theorem retireIn_table {id : InterventionId} {now : Timestamp} {reason : Text}
    {table retired : List Intervention} (h : retireIn id now reason table = .ok retired) :
    List.Forall₂ (Moves g (.retire id now reason)) table retired := by
  induction table generalizing retired with
  | nil => cases h
  | cons record rest ih =>
    unfold retireIn at h
    split_ifs at h with hid hterminal
    · cases hrest : retireIn id now reason rest with
      | error e =>
        rw [hrest] at h
        cases h
      | ok inner =>
        rw [hrest] at h
        obtain rfl := Except.ok.inj h
        exact List.Forall₂.cons (.kept _ record) (ih hrest)
    · cases h
    · cases hm : transition record .retired now reason with
      | error e =>
        rw [hm] at h
        cases h
      | ok moved =>
        rw [hm] at h
        obtain rfl := Except.ok.inj h
        exact List.Forall₂.cons (.retired id now reason record moved hm) (kept_table _ rest)

theorem effect_of_issues {bundle : EvidenceBundle} (h : g.Issues bundle) :
    g.effect bundle = .issue (g.issuedRecord bundle) := by
  have hnone := (liveRecord_eq_none h.unfenced).mpr h.vacant
  have hby := effect_by g bundle
  generalize g.effect bundle = effect at hby ⊢
  cases hby with
  | issue => rfl
  | idle _ ha => exact absurd h.acts ha
  | hold live hl => rw [hnone] at hl; cases hl
  | carryOn live hl => rw [hnone] at hl; cases hl
  | recover live hl => rw [hnone] at hl; cases hl
  | relax live hl => rw [hnone] at hl; cases hl
  | retireUnfounded live hl => rw [hnone] at hl; cases hl
  | keep live hl => rw [hnone] at hl; cases hl

/-- The table and the next generation after an issue. -/
theorem evaluate_of_issues {bundle : EvidenceBundle} (h : g.Issues bundle) :
    (g.evaluate bundle).2.state.interventions =
        trimInterventions (g.state.interventions ++ [g.issuedRecord bundle]) ∧
      (g.evaluate bundle).2.state.nextInterventionGeneration =
        g.state.nextInterventionGeneration.next := by
  have hnext : (g.commit bundle (g.effect bundle)).2.state.nextInterventionGeneration =
      (g.effectState bundle (g.effect bundle)).nextInterventionGeneration := rfl
  rw [evaluate_committed h.accepts h.unfenced, hnext, commit_interventions,
    effectState_interventions, effectState_next, effect_of_issues h]
  exact ⟨rfl, rfl⟩

/-- A table mapped record by record. -/
theorem mapped_table {operation : Operation} {move : Intervention → Intervention}
    (h : ∀ record, Moves g operation record (move record)) (table : List Intervention) :
    List.Forall₂ (Moves g operation) table (table.map move) := by
  rw [List.forall₂_map_right_iff]
  exact List.forall₂_same.mpr fun record _ => h record

/-! ### Issued records -/

theorem issuedRecord_live {bundle : EvidenceBundle} : (g.issuedRecord bundle).live := by
  have hstate := (createdRecord_binding bundle g.config.policy (g.instant bundle)
    (g.synthesis bundle).intent).2.2
  unfold Intervention.live issuedRecord
  rw [hstate]
  exact Or.inr (Or.inl rfl)

theorem issuedRecord_intent (bundle : EvidenceBundle) :
    (g.issuedRecord bundle).intent = (g.synthesis bundle).intent := by
  unfold issuedRecord createdRecord
  exact (tryTransition_sameRecord _ _ _ _).intent.trans (tryTransition_sameRecord _ _ _ _).intent

/-! ### Published intents -/

/-- The intent of a window that acts on an incident is the one of its sized action. -/
theorem synthesis_intent_of_acts {bundle : EvidenceBundle} (h : g.accepts bundle)
    (ha : g.actsOnIncident bundle) :
    ∃ action, sizeAction g.config.policy (g.windowClassification bundle) = some action ∧
      (g.synthesis bundle).intent =
        actionIntent (g.synthesisRequest bundle) bundle g.config.policy
          (g.windowClassification bundle) action := by
  obtain ⟨hk, action, hs, hr⟩ := (actsOnIncident_iff h).mp ha
  refine ⟨action, hs, ?_⟩
  rw [synthesis_of_incident h hk]
  exact (synthesizeIncident_authorized hs hr).2.2

/-- The intent of an authorized recovery window steps the live one down or retires it. -/
theorem synthesis_intent_of_recovery {bundle : EvidenceBundle} {live : Intervention}
    (hg : g.Governs bundle live) (hk : (g.windowClassification bundle).kind = .recovery)
    (ha : (g.synthesis bundle).authority.interventionAuthorized = true) :
    (g.synthesis bundle).intent =
      let request := g.synthesisRequest bundle
      let bounds := g.config.policy.bounds
      let step := recoveryStep bounds request.recoveryStepBp live.intent
      if recoveryCompletes bounds step live.intent then
        retiredIntent bounds (request.issueInstant bundle) live.intent
      else relaxedIntent bounds (request.issueInstant bundle) step live.intent := by
  obtain ⟨he, prior, hp, hactive⟩ := (synthesis_recovery_authorized_iff hg.accepts hk).mp ha
  obtain rfl : live = prior := Option.some.inj (hg.live.symm.trans hp)
  rw [synthesis_of_recovery hg.accepts hk]
  apply synthesizeRecovery_intent he _ hactive
  show (g.liveRecord bundle).map (fun record => record.intent) = some live.intent
  rw [hg.live]
  rfl

/-- What every operation does to the table. -/
theorem step_table (g : Governor) (operation : Operation) :
    TableBy g operation (g.step operation).state.interventions
      (g.step operation).state.nextInterventionGeneration := by
  have hby := step_by g operation
  generalize g.step operation = after at hby ⊢
  cases hby with
  | evaluated bundle => exact evaluate_table g bundle
  | policyChanged hv hc =>
    exact .moved (mapped_table (fun record => .revalidated _ _ record hv hc) _)
  | retired hr => exact .moved (retireIn_table hr)
  | restored hv => exact .restored hv
  | stopped now => exact .moved (mapped_table (fun record => .stopped now record) _)
  | reset => exact .reset
  | policyRefused | policyKept | bindRefused | bound | retireRefused | restoreRefused =>
    exact .moved (kept_table _ _)

/-! ### The bound of the table -/

theorem tableBounded_create (config : GovernorConfig) : tableBounded (create config) :=
  Nat.zero_le _

/-- Every operation keeps the table within its bound: an issue finds no live record, and the
trim drops only what is not live. -/
theorem tableBounded_step (g : Governor) (operation : Operation) (h : tableBounded g) :
    tableBounded (g.step operation) := by
  have htable := step_table g operation
  unfold tableBounded at h ⊢
  generalize (g.step operation).state.interventions = table at htable ⊢
  generalize (g.step operation).state.nextInterventionGeneration = next at htable
  cases htable with
  | moved hmoves => exact hmoves.length_eq.symm.trans_le h
  | committed hmoves =>
    apply trimInterventions_length
    exact (List.length_filter_le _ _).trans (hmoves.length_eq.symm.trans_le h)
  | @issued bundle hi =>
    have hdead : g.state.interventions.filter (fun record => record.live) = [] := by
      rw [List.filter_eq_nil_iff]
      intro record hm
      simpa using findLive_eq_none.mp hi.vacant record hm
    apply trimInterventions_length
    rw [List.filter_append, hdead, List.nil_append]
    exact (List.length_filter_le _ [g.issuedRecord bundle]).trans
      (show 1 ≤ kMaxInterventions by decide)
  | restored hv =>
    rw [List.length_map]
    exact validate_table_le hv
  | reset => exact Nat.zero_le _

/-- Every call of a run meets a bounded table. -/
theorem tableBounded_of_mem_calls {config : GovernorConfig} {operations : List Operation}
    {call : Governor × Operation} (h : call ∈ calls config operations) : tableBounded call.1 :=
  Foundation.calls_invariant tableBounded_step (tableBounded_create config) h

/-! ### The history -/

/-- The history an operation leaves. -/
inductive HistoryBy (g : Governor) : Operation → List WindowRecord → Prop
  | kept (operation : Operation) : HistoryBy g operation g.state.history
  | recorded (bundle : EvidenceBundle) :
    HistoryBy g (.evaluate bundle)
      (trimHistory g.config.maxHistory (g.state.history ++ [g.windowRecord bundle]))
  | restored {state : GovernorState} (h : state.validate = .ok ()) :
    HistoryBy g (.restoreState state) state.history
  | reset : HistoryBy g .reset []

theorem countedState_history (g : Governor) (bundle : EvidenceBundle) :
    (g.countedState bundle).history = g.state.history := by
  unfold countedState
  simp only
  split_ifs <;> rfl

theorem effectState_history (g : Governor) (bundle : EvidenceBundle) (effect : Effect) :
    (g.effectState bundle effect).history = g.state.history := by
  rw [← countedState_history g bundle]
  cases effect with
  | noAction live => cases live <;> rfl
  | _ => rfl

theorem evaluate_history (g : Governor) (bundle : EvidenceBundle) :
    HistoryBy g (.evaluate bundle) (g.evaluate bundle).2.state.history := by
  rcases evaluate_cases g bundle with ⟨_, decision, reason, detail, he⟩ | ⟨_, view, denial, _, _, he⟩ |
    ⟨_, _, he⟩
  · rw [he]
    exact .kept _
  · have hfenced : (g.fence bundle view denial.1 denial.2).2.state.history = g.state.history :=
      countedState_history g bundle
    rw [he, hfenced]
    exact .kept _
  · have hcommitted : (g.commit bundle (g.effect bundle)).2.state.history =
        trimHistory g.config.maxHistory
          ((g.effectState bundle (g.effect bundle)).history ++ [g.windowRecord bundle]) := rfl
    rw [he, hcommitted, effectState_history]
    exact .recorded bundle

/-- What every operation does to the history. -/
theorem step_history (g : Governor) (operation : Operation) :
    HistoryBy g operation (g.step operation).state.history := by
  have hby := step_by g operation
  generalize g.step operation = after at hby ⊢
  cases hby with
  | evaluated bundle => exact evaluate_history g bundle
  | restored hv => exact .restored hv
  | reset => exact .reset
  | _ => exact .kept _

/-- The policy an operation leaves in force. -/
def policyAfter (g : Governor) : Operation → GovernorPolicy
  | .configurePolicy policy _ => if policy.validate = .ok () then policy else g.config.policy
  | _ => g.config.policy

/-- What an operation leaves of the configuration. -/
theorem step_config (g : Governor) (operation : Operation) :
    (g.step operation).config.maxHistory = g.config.maxHistory ∧
      (g.step operation).config.policy = g.policyAfter operation := by
  have hby := step_by g operation
  generalize g.step operation = after at hby ⊢
  cases hby with
  | evaluated bundle =>
    have hc := evaluate_config g bundle
    exact ⟨congrArg GovernorConfig.maxHistory hc, congrArg GovernorConfig.policy hc⟩
  | policyRefused error hv => exact ⟨rfl, (if_neg (by simp [hv])).symm⟩
  | policyKept hv => exact ⟨rfl, (if_pos hv).symm⟩
  | policyChanged hv => exact ⟨rfl, (if_pos hv).symm⟩
  | _ => exact ⟨rfl, rfl⟩

end Governor

end IncastGovernor
