import IncastGovernor.Governor.Steps
import IncastGovernor.Governor.Targets

/-! The lifecycle states an operation writes. A record is moved by calls of `transition`, most of
them with the result dropped and the state assigned behind it, and by assignments alone. The
writes of one operation, record by record, follow the table of transitions except where a
recovery completes over a record that is revalidating, and where a proposed record is retired. -/

namespace IncastGovernor

/-! ### Writes of a state -/

/-- A call of `transition`, or an assignment of the state. -/
inductive StateWrite where
  | call (target : InterventionState)
  | assign (target : InterventionState)
  deriving DecidableEq

namespace StateWrite

def target : StateWrite → InterventionState
  | .call target | .assign target => target

/-- The state behind a write: a rejected call leaves it. -/
def next (state : InterventionState) : StateWrite → InterventionState
  | .call target => if isLegalTransition state target then target else state
  | .assign target => target

end StateWrite

/-- The state some writes leave. -/
def settle (state : InterventionState) (writes : List StateWrite) : InterventionState :=
  Foundation.run StateWrite.next state writes

/-- No call is rejected, and every assigned state follows the one before it in the table. -/
def followsTable (state : InterventionState) (writes : List StateWrite) : Prop :=
  ∀ step ∈ Foundation.calls StateWrite.next state writes,
    isLegalTransition step.1 step.2.target

instance (state : InterventionState) (writes : List StateWrite) :
    Decidable (followsTable state writes) := by
  delta followsTable; infer_instance

@[simp] theorem followsTable_nil (state : InterventionState) : followsTable state [] := by
  simp [followsTable]

theorem followsTable_cons (state : InterventionState) (write : StateWrite)
    (rest : List StateWrite) :
    followsTable state (write :: rest) ↔
      isLegalTransition state write.target ∧ followsTable (write.next state) rest := by
  simp [followsTable]

/-- A call whose rejection is answered by an assignment. -/
def callOrAssign (state target : InterventionState) : List StateWrite :=
  .call target :: if isLegalTransition state target then [] else [.assign target]

/-- A call whose result is dropped, and an assignment. -/
def callAndAssign (target : InterventionState) : List StateWrite := [.call target, .assign target]

theorem settle_callOrAssign (state target : InterventionState) :
    settle state (callOrAssign state target) = target := by
  unfold settle callOrAssign
  by_cases h : isLegalTransition state target <;> simp [h, StateWrite.next]

/-- Either form follows the table exactly when the table has the move. -/
theorem followsTable_callOrAssign (state target : InterventionState) :
    followsTable state (callOrAssign state target) ↔ isLegalTransition state target := by
  unfold callOrAssign
  rw [followsTable_cons]
  by_cases h : isLegalTransition state target <;> simp [h, StateWrite.target]

namespace Governor

/-! ### The writes of each operation -/

def fenceWrites (live : Intervention) : List StateWrite := callOrAssign live.state .fenced

def expireWrites (now : Timestamp) (live : Intervention) : List StateWrite :=
  if live.expiresAt.valid ∧ now.valid ∧ now > live.expiresAt ∧ live.state ≠ .revalidating then
    callOrAssign live.state .revalidating
  else []

/-- A created record is proposed, authorized and activated before it is stored. -/
def createWrites : List StateWrite :=
  [.assign .proposed, .call .authorized] ++ callAndAssign .active

def reactivateWrites (state : InterventionState) : List StateWrite :=
  if state = .revalidating then callAndAssign .active
  else if state = .relaxing then callAndAssign .active
  else []

/-- A completed recovery passes Relaxing on its way to Retired. -/
def recoverWrites : List StateWrite := callAndAssign .relaxing ++ callAndAssign .retired

def relaxWrites (state : InterventionState) : List StateWrite :=
  if state = .active then callAndAssign .relaxing else []

def unfoundedWrites : List StateWrite := callAndAssign .retired

/-- The writes of an effect on the record that is in a state. -/
def effectWrites (state : InterventionState) : Effect → List StateWrite
  | .issue _ => createWrites
  | .carryOn _ => reactivateWrites state
  | .recover _ => recoverWrites
  | .relax _ => relaxWrites state
  | .retireUnfounded _ => unfoundedWrites
  | .hold _ | .noAction _ => []

/-- The writes of one evaluation with the state they start from: of the live record, or of the
record it creates. -/
def evaluateWrites (g : Governor) (bundle : EvidenceBundle) :
    List (InterventionState × List StateWrite) :=
  if ¬g.accepts bundle then []
  else
    match g.liveView, g.liveFence bundle with
    | some view, some _ => [(view.live.state, fenceWrites view.live)]
    | some view, none =>
      let now := g.instant bundle
      [(view.live.state, expireWrites now view.live ++
        effectWrites (expireRecord now view.live).state (g.effect bundle))]
    | none, _ => [(.proposed, effectWrites .proposed (g.effect bundle))]

def revalidateWrites (record : Intervention) : List StateWrite :=
  if ¬record.live then [] else callOrAssign record.state .revalidating

/-- `retire` refuses a terminal record before it calls `transition`. -/
def retireWrites (id : InterventionId) :
    List Intervention → List (InterventionState × List StateWrite)
  | [] => []
  | record :: rest =>
    if record.id ≠ id then retireWrites id rest
    else if record.state.terminal then []
    else [(record.state, [.call .retired])]

def restoreWrites (record : Intervention) : List StateWrite :=
  if ¬record.live then []
  else if record.state ≠ .revalidating then [.assign .revalidating]
  else []

def shutdownWrites (record : Intervention) : List StateWrite :=
  if ¬record.live then [] else callOrAssign record.state .retired

/-- The writes of an operation, record by record. -/
def writes (g : Governor) : Operation → List (InterventionState × List StateWrite)
  | .evaluate bundle => g.evaluateWrites bundle
  | .configurePolicy policy _ =>
    if policy.validate = .ok () ∧ g.policyChanged policy then
      g.state.interventions.map fun record => (record.state, revalidateWrites record)
    else []
  | .retire id _ _ => retireWrites id g.state.interventions
  | .restoreState state =>
    if state.validate = .ok () then
      state.interventions.map fun record => (record.state, restoreWrites record)
    else []
  | .shutdown _ => g.state.interventions.map fun record => (record.state, shutdownWrites record)
  | .bindAuthority .. | .reset => []

/-- Every write of an operation follows the table. -/
def writesFollowTable (g : Governor) (operation : Operation) : Prop :=
  ∀ record ∈ g.writes operation, followsTable record.1 record.2

/-- An accepted, unfenced recovery window completes over a live record that is neither Active nor
Relaxing; or a Proposed record is retired. -/
def breaksTable (g : Governor) : Operation → Prop
  | .evaluate bundle =>
    let bounds := g.config.policy.bounds
    g.accepts bundle ∧ g.liveFence bundle = none ∧
      (g.windowClassification bundle).kind = .recovery ∧ g.config.policy.recovery.enabled = true ∧
      ∃ view, g.liveView = some view ∧ view.live.intent.active ∧
        recoveryCompletes bounds (recoveryStep bounds (BasisPoints.of 0) view.live.intent)
          view.live.intent ∧
        ¬(view.live.state = .active ∨ view.live.state = .relaxing)
  | .retire id _ _ =>
    ∃ record, g.state.interventions.find? (fun record => record.id = id) = some record ∧
      record.state = .proposed
  | _ => False

/-! ### The writes are those of the records -/

theorem fencedRecord_settles (now : Timestamp) (detail : Text) (live : Intervention) :
    (fencedRecord now detail live).state = settle live.state (fenceWrites live) := by
  rw [fencedRecord_state, fenceWrites, settle_callOrAssign]

theorem expireRecord_settles (now : Timestamp) (live : Intervention) :
    (expireRecord now live).state = settle live.state (expireWrites now live) := by
  unfold expireRecord expireWrites
  split_ifs with hexpired
  · rw [settle_callOrAssign]
    cases hm : transition live .revalidating now (ascii "intervention reached its expiry boundary") with
    | ok moved => exact (transition_sameRecord hm).2
    | error e => rfl
  · rfl

theorem createdRecord_settles (bundle : EvidenceBundle) (policy : GovernorPolicy) (now : Timestamp)
    (intent : MitigationIntent) :
    (createdRecord bundle policy now intent).state = settle .proposed createWrites := rfl

theorem reactivatedRecord_settles (now : Timestamp) (live : Intervention) :
    (reactivatedRecord now live).state = settle live.state (reactivateWrites live.state) := by
  unfold reactivatedRecord reactivateWrites
  split_ifs <;> rfl

theorem recoveredRecord_settles (now : Timestamp) (intent : MitigationIntent)
    (live : Intervention) :
    (recoveredRecord now intent live).state = settle live.state recoverWrites := rfl

theorem relaxedRecord_settles (now : Timestamp) (intent : MitigationIntent) (live : Intervention) :
    (relaxedRecord now intent live).state = settle live.state (relaxWrites live.state) := by
  unfold relaxedRecord relaxWrites
  split_ifs <;> rfl

theorem unfoundedRecord_settles (now : Timestamp) (live : Intervention) :
    (unfoundedRecord now live).state = settle live.state unfoundedWrites := rfl

theorem revalidateRecord_settles (policy : GovernorPolicy) (now : Timestamp)
    (record : Intervention) :
    (revalidateRecord policy now record).state = settle record.state (revalidateWrites record) := by
  unfold revalidateWrites
  split_ifs with hlive
  · rw [settle_callOrAssign, (revalidateRecord_live policy now hlive).state]
  · rw [revalidateRecord_dead policy now hlive]
    rfl

theorem restoreRecord_settles (lastEvaluation : Timestamp) (record : Intervention) :
    (restoreRecord lastEvaluation record).state = settle record.state (restoreWrites record) := by
  unfold restoreRecord restoreWrites
  split_ifs with hlive hstate
  · rfl
  · exact (not_not.mp hstate).symm
  · rfl

theorem shutdownRecord_settles (now : Timestamp) (record : Intervention) :
    (shutdownRecord now record).state = settle record.state (shutdownWrites record) := by
  unfold shutdownWrites
  split_ifs with hlive
  · rw [settle_callOrAssign, (shutdownRecord_live now hlive).state]
  · rw [shutdownRecord_dead now hlive]
    rfl

theorem retireIn_settles {id : InterventionId} {now : Timestamp} {reason : Text}
    {table retired : List Intervention} (h : retireIn id now reason table = .ok retired) :
    ∃ before record moved after, table = before ++ record :: after ∧
      retired = before ++ moved :: after ∧
      retireWrites id table = [(record.state, [.call .retired])] ∧
      moved.state = settle record.state [.call .retired] := by
  induction table generalizing retired with
  | nil => cases h
  | cons record rest ih =>
    unfold retireIn at h
    unfold retireWrites
    split_ifs at h ⊢ with hid hterminal
    · cases hrest : retireIn id now reason rest with
      | error e =>
        rw [hrest] at h
        cases h
      | ok inner =>
        rw [hrest] at h
        obtain rfl := Except.ok.inj h
        obtain ⟨before, found, moved, after, rfl, rfl, hwrites, hstate⟩ := ih hrest
        exact ⟨record :: before, found, moved, after, rfl, rfl, hwrites, hstate⟩
    · cases h
    · cases hm : transition record .retired now reason with
      | error e =>
        rw [hm] at h
        cases h
      | ok moved =>
        rw [hm] at h
        obtain rfl := Except.ok.inj h
        refine ⟨[], record, moved, rest, rfl, rfl, rfl, ?_⟩
        have hlegal : isLegalTransition record.state .retired := by
          by_contra hn
          rw [transition, if_pos hn] at hm
          cases hm
        rw [(transition_sameRecord hm).2]
        simp [settle, StateWrite.next, hlegal]

/-! ### The writes of an evaluation -/

variable {g : Governor} {bundle : EvidenceBundle}

theorem expireWrites_of_unfenced (hf : g.liveFence bundle = none) {view : LiveView}
    (hv : g.liveView = some view) : expireWrites (g.instant bundle) view.live = [] := by
  have hn : isFenced view.live (g.fenceContext bundle) = none := by
    simpa [liveFence, hv] using hf
  have hx := (isFenced_eq_none hn).2.2
  unfold expireWrites
  exact if_neg fun hexpired => hx ⟨hexpired.1, hexpired.2.1, hexpired.2.2.1⟩

/-- A window that is not fenced writes what its effect writes on the live record. -/
theorem evaluateWrites_of_view (h : g.accepts bundle) (hf : g.liveFence bundle = none)
    {view : LiveView} (hv : g.liveView = some view) :
    g.evaluateWrites bundle =
      [(view.live.state, effectWrites view.live.state (g.effect bundle))] := by
  have hlive : expireRecord (g.instant bundle) view.live = view.live := by
    have hrecord := liveRecord_of_view hf hv
    rw [liveRecord, hv] at hrecord
    exact Option.some.inj hrecord
  unfold evaluateWrites
  rw [if_neg (not_not.mpr h), hv, hf]
  simp only [expireWrites_of_unfenced hf hv, hlive, List.nil_append]

theorem evaluateWrites_of_empty (h : g.accepts bundle) (hv : g.liveView = none) :
    g.evaluateWrites bundle = [(.proposed, effectWrites .proposed (g.effect bundle))] := by
  unfold evaluateWrites
  rw [if_neg (not_not.mpr h), hv]

/-- The state an accepted window reports for the record it acts on is the one its writes
leave. -/
theorem evaluate_settles (h : g.accepts bundle) {view : LiveView} (hv : g.liveView = some view) :
    ∃ writes, g.evaluateWrites bundle = [(view.live.state, writes)] ∧
      (g.evaluate bundle).1.interventionState = settle view.live.state writes := by
  cases hf : g.liveFence bundle with
  | some denial =>
    refine ⟨fenceWrites view.live, ?_, ?_⟩
    · unfold evaluateWrites
      rw [if_neg (not_not.mpr h), hv, hf]
    · rw [evaluate_fenced h hv hf, ← fencedRecord_settles (g.instant bundle) denial.2]
      rfl
  | none =>
    refine ⟨_, evaluateWrites_of_view h hf hv, ?_⟩
    rw [evaluate_committed h hf]
    have hrecord := liveRecord_of_view hf hv
    have hby := effect_by g bundle
    show (g.effectDecision bundle (g.effect bundle)).interventionState = _
    generalize g.effect bundle = effect at hby ⊢
    cases hby with
    | hold live hl hh =>
      obtain rfl := Option.some.inj (hl.symm.trans hrecord)
      rfl
    | issue hl ha =>
      rw [hl] at hrecord
      cases hrecord
    | carryOn live hl hh ha =>
      obtain rfl := Option.some.inj (hl.symm.trans hrecord)
      exact reactivatedRecord_settles _ _
    | recover live hl hk ha hi =>
      obtain rfl := Option.some.inj (hl.symm.trans hrecord)
      rfl
    | relax live hl hk ha hi =>
      obtain rfl := Option.some.inj (hl.symm.trans hrecord)
      exact relaxedRecord_settles _ (g.synthesis bundle).intent _
    | retireUnfounded live hl hk hn hs =>
      obtain rfl := Option.some.inj (hl.symm.trans hrecord)
      rfl
    | keep live hl hh ha hr =>
      obtain rfl := Option.some.inj (hl.symm.trans hrecord)
      rfl
    | idle hl ha =>
      rw [hl] at hrecord
      cases hrecord

/-! ### Which writes follow the table -/

theorem fenceWrites_follow {live : Intervention} (hl : live.live) :
    followsTable live.state (fenceWrites live) := by
  refine (followsTable_callOrAssign _ _).mpr ?_
  rcases hl with hs | hs | hs | hs <;> rw [hs] <;> decide

theorem reactivateWrites_follow (state : InterventionState) :
    followsTable state (reactivateWrites state) := by
  cases state <;> decide

theorem relaxWrites_follow (state : InterventionState) : followsTable state (relaxWrites state) := by
  cases state <;> decide

/-- A completed recovery follows the table over a record that is Active or Relaxing. -/
theorem recoverWrites_follow_iff {state : InterventionState} (hl : state.live) :
    followsTable state recoverWrites ↔ state = .active ∨ state = .relaxing := by
  rcases hl with rfl | rfl | rfl | rfl <;> decide

theorem revalidateWrites_follow (record : Intervention) :
    followsTable record.state (revalidateWrites record) := by
  unfold revalidateWrites
  split_ifs with hlive
  · refine (followsTable_callOrAssign _ _).mpr ?_
    rcases hlive with hs | hs | hs | hs <;> rw [hs] <;> decide
  · exact followsTable_nil _

theorem restoreWrites_follow (record : Intervention) :
    followsTable record.state (restoreWrites record) := by
  unfold restoreWrites
  split_ifs with hlive hstate
  · rcases hlive with hs | hs | hs | hs <;> rw [hs] <;> decide
  · exact followsTable_nil _
  · exact followsTable_nil _

theorem shutdownWrites_follow (record : Intervention) :
    followsTable record.state (shutdownWrites record) := by
  unfold shutdownWrites
  split_ifs with hlive
  · refine (followsTable_callOrAssign _ _).mpr ?_
    rcases hlive with hs | hs | hs | hs <;> rw [hs] <;> decide
  · exact followsTable_nil _

/-- Of the states a retirement reaches only Proposed has no way to Retired. -/
theorem retireWrites_follow_iff (id : InterventionId) (table : List Intervention) :
    (∀ record ∈ retireWrites id table, followsTable record.1 record.2) ↔
      ¬∃ record, table.find? (fun record => record.id = id) = some record ∧
        record.state = .proposed := by
  induction table with
  | nil => simp [retireWrites]
  | cons record rest ih =>
    unfold retireWrites
    by_cases hid : record.id = id
    · rw [if_neg (not_not.mpr hid), List.find?_cons_of_pos (by simpa using hid)]
      cases hs : record.state <;>
        simp [hs, InterventionState.terminal, followsTable_cons, StateWrite.target,
          isLegalTransition]
    · rw [if_pos hid, List.find?_cons_of_neg (by simpa using hid)]
      exact ih

/-- The intent of an authorized Recovery window is spent exactly when the recovery completes. -/
theorem recovery_spent_iff (h : g.accepts bundle) (hf : g.liveFence bundle = none)
    (hk : (g.windowClassification bundle).kind = .recovery)
    (he : g.config.policy.recovery.enabled = true) {view : LiveView}
    (hv : g.liveView = some view) (ha : view.live.intent.active) :
    ¬(g.synthesis bundle).intent.active ↔
      recoveryCompletes g.config.policy.bounds
        (recoveryStep g.config.policy.bounds (BasisPoints.of 0) view.live.intent)
        view.live.intent := by
  rw [recoverySynthesis_intent h hf hk he hv ha]
  simp only
  split_ifs with hdone
  · simp [hdone, MitigationIntent.active, retiredIntent]
  · simpa [hdone, MitigationIntent.active, relaxedIntent] using ha

theorem breaksTable_evaluate_iff (h : g.accepts bundle) (hf : g.liveFence bundle = none)
    {view : LiveView} (hv : g.liveView = some view) :
    g.breaksTable (.evaluate bundle) ↔
      (g.windowClassification bundle).kind = .recovery ∧
        (g.synthesis bundle).authority.interventionAuthorized = true ∧
        ¬(g.synthesis bundle).intent.active ∧
        ¬(view.live.state = .active ∨ view.live.state = .relaxing) := by
  constructor
  · rintro ⟨-, -, hk, he, other, ho, hactive, hdone, hstate⟩
    obtain rfl := Option.some.inj (ho.symm.trans hv)
    exact ⟨hk, (synthesis_recovery_authorized_iff h hk).mpr
        ⟨he, other.live, liveRecord_of_view hf hv, hactive⟩,
      (recovery_spent_iff h hf hk he hv hactive).mpr hdone, hstate⟩
  · rintro ⟨hk, hz, hspent, hstate⟩
    obtain ⟨he, live, hl, hactive⟩ := (synthesis_recovery_authorized_iff h hk).mp hz
    obtain rfl := Option.some.inj (hl.symm.trans (liveRecord_of_view hf hv))
    exact ⟨h, hf, hk, he, view, hv, hactive,
      (recovery_spent_iff h hf hk he hv hactive).mp hspent, hstate⟩

/-- The effect on a live record follows the table unless it completes a recovery over a record
that is neither Active nor Relaxing. -/
theorem effectWrites_follow_iff (h : g.accepts bundle) (hf : g.liveFence bundle = none)
    {view : LiveView} (hv : g.liveView = some view) :
    followsTable view.live.state (effectWrites view.live.state (g.effect bundle)) ↔
      ¬g.breaksTable (.evaluate bundle) := by
  have hrecord := liveRecord_of_view hf hv
  rw [breaksTable_evaluate_iff h hf hv]
  have hby := effect_by g bundle
  generalize g.effect bundle = effect at hby
  cases hby with
  | hold live hl hh =>
    refine ⟨fun _ hb => ?_, fun _ => followsTable_nil _⟩
    exact not_holds_of_recovery hb.1 hh
  | issue hl ha =>
    rw [hl] at hrecord
    cases hrecord
  | carryOn live hl hh ha =>
    refine ⟨fun _ hb => ?_, fun _ => reactivateWrites_follow _⟩
    exact not_actsOnIncident_of_recovery hb.1 ha
  | recover live hl hk ha hi =>
    have hlive : view.live.state.live := (liveView_splits hv).live
    refine (recoverWrites_follow_iff hlive).trans ?_
    simp only [hk, ha, hi, not_false_eq_true, true_and, not_not]
  | relax live hl hk ha hi =>
    exact ⟨fun _ hb => hb.2.2.1 hi, fun _ => relaxWrites_follow _⟩
  | retireUnfounded live hl hk hn hs =>
    obtain rfl := Option.some.inj (hl.symm.trans hrecord)
    refine ⟨fun _ hb => hk hb.1, fun _ => ?_⟩
    rw [hs]
    exact show followsTable .revalidating unfoundedWrites by decide
  | keep live hl hh ha hr =>
    refine ⟨fun _ hb => ?_, fun _ => followsTable_nil _⟩
    rw [hr hb.1] at hb
    exact Bool.false_ne_true hb.2.1
  | idle hl ha =>
    rw [hl] at hrecord
    cases hrecord

theorem evaluateWrites_follow_iff (g : Governor) (bundle : EvidenceBundle) :
    (∀ record ∈ g.evaluateWrites bundle, followsTable record.1 record.2) ↔
      ¬g.breaksTable (.evaluate bundle) := by
  by_cases h : g.accepts bundle
  swap
  · have hnone : g.evaluateWrites bundle = [] := if_pos h
    rw [hnone]
    exact ⟨fun _ hb => h hb.1, fun _ record hr => absurd hr List.not_mem_nil⟩
  cases hv : g.liveView with
  | none =>
    rw [evaluateWrites_of_empty h hv, List.forall_mem_singleton]
    have hf : g.liveFence bundle = none := liveFence_none_of_view hv
    refine ⟨fun _ => ?_, fun _ => ?_⟩
    · rintro ⟨_, _, _, _, view, hview, _⟩
      rw [hv] at hview
      cases hview
    · have hnone := (liveRecord_eq_none hf).mpr hv
      have hby := effect_by g bundle
      generalize g.effect bundle = effect at hby
      cases hby with
      | issue hl ha => exact show followsTable .proposed createWrites by decide
      | idle hl ha => exact followsTable_nil _
      | hold live hl hh => rw [hl] at hnone; cases hnone
      | carryOn live hl hh ha => rw [hl] at hnone; cases hnone
      | recover live hl hk ha hi => rw [hl] at hnone; cases hnone
      | relax live hl hk ha hi => rw [hl] at hnone; cases hnone
      | retireUnfounded live hl hk hn hs => rw [hl] at hnone; cases hnone
      | keep live hl hh ha hr => rw [hl] at hnone; cases hnone
  | some view =>
    cases hf : g.liveFence bundle with
    | none =>
      rw [evaluateWrites_of_view h hf hv, List.forall_mem_singleton]
      exact effectWrites_follow_iff h hf hv
    | some denial =>
      have hwrites : g.evaluateWrites bundle = [(view.live.state, fenceWrites view.live)] := by
        unfold evaluateWrites
        rw [if_neg (not_not.mpr h), hv, hf]
      rw [hwrites, List.forall_mem_singleton]
      refine ⟨fun _ hb => ?_, fun _ => fenceWrites_follow (liveView_splits hv).live⟩
      have hnone := hb.2.1
      rw [hf] at hnone
      cases hnone

/-- One operation follows the table exactly when it is neither of the two. -/
theorem writesFollowTable_iff (g : Governor) (operation : Operation) :
    g.writesFollowTable operation ↔ ¬g.breaksTable operation := by
  cases operation with
  | evaluate bundle => exact evaluateWrites_follow_iff g bundle
  | retire id now reason => exact retireWrites_follow_iff id g.state.interventions
  | configurePolicy policy now =>
    refine ⟨fun _ hb => hb, fun _ record hr => ?_⟩
    unfold writes at hr
    simp only at hr
    split_ifs at hr
    · obtain ⟨found, -, rfl⟩ := List.mem_map.mp hr
      exact revalidateWrites_follow found
    · cases hr
  | restoreState state =>
    refine ⟨fun _ hb => hb, fun _ record hr => ?_⟩
    unfold writes at hr
    simp only at hr
    split_ifs at hr
    · obtain ⟨found, -, rfl⟩ := List.mem_map.mp hr
      exact restoreWrites_follow found
    · cases hr
  | shutdown now =>
    refine ⟨fun _ hb => hb, fun _ record hr => ?_⟩
    obtain ⟨found, -, rfl⟩ := List.mem_map.mp hr
    exact shutdownWrites_follow found
  | bindAuthority => exact ⟨fun _ hb => hb, fun _ record hr => absurd hr List.not_mem_nil⟩
  | reset => exact ⟨fun _ hb => hb, fun _ record hr => absurd hr List.not_mem_nil⟩

/-- Over a run: every state written follows the table and no call is rejected exactly when no
recovery completes over a record that is neither Active nor Relaxing and no Proposed record is
retired. -/
theorem run_follows_table_iff (config : GovernorConfig) (operations : List Operation) :
    (∀ call ∈ calls config operations, call.1.writesFollowTable call.2) ↔
      ∀ call ∈ calls config operations, ¬call.1.breaksTable call.2 :=
  forall_congr' fun call => forall_congr' fun _ => writesFollowTable_iff call.1 call.2

/-! ### A recovery that completes over a revalidating record -/

/-- The next generation of the sample policy, with a higher least reduction. -/
def steeperPolicy : GovernorPolicy :=
  { samplePolicy with
    generation := ⟨2⟩, bounds := { samplePolicy.bounds with minReductionBp := 4000 } }

/-- An incident and a calm window, a policy change, and the calm window that completes. -/
def steeperRun : List Operation :=
  [.evaluate incidentWindow, .evaluate (calmWindow 2 2000000000),
    .configurePolicy steeperPolicy ⟨2500000000⟩, .evaluate (calmWindow 3 3000000000)]

/-- The governor the last window of that run meets. -/
def beforeCompletion : Governor :=
  Foundation.run step (create sampleConfig)
    [.evaluate incidentWindow, .evaluate (calmWindow 2 2000000000),
      .configurePolicy steeperPolicy ⟨2500000000⟩]

/-- The call from Revalidating to Relaxing is rejected, and the state is assigned. -/
theorem completed_recovery_leaves_table :
    sampleConfig.policy.validate = .ok () ∧ steeperPolicy.validate = .ok () ∧
      ¬∀ call ∈ calls sampleConfig steeperRun, call.1.writesFollowTable call.2 := by
  refine ⟨by decide +kernel, by decide +kernel, fun h => ?_⟩
  have hmem : (beforeCompletion, Operation.evaluate (calmWindow 3 3000000000)) ∈
      calls sampleConfig steeperRun :=
    (Foundation.mem_calls_iff step).mpr
      ⟨[.evaluate incidentWindow, .evaluate (calmWindow 2 2000000000),
        .configurePolicy steeperPolicy ⟨2500000000⟩], [], rfl, rfl⟩
  have hwrites : beforeCompletion.evaluateWrites (calmWindow 3 3000000000) =
      [(.revalidating, recoverWrites)] := by
    decide +kernel
  have hfollow : followsTable .revalidating recoverWrites := by
    refine h _ hmem (.revalidating, recoverWrites) ?_
    show _ ∈ beforeCompletion.evaluateWrites (calmWindow 3 3000000000)
    rw [hwrites]
    exact List.mem_singleton_self _
  exact absurd hfollow (by decide)

end Governor

end IncastGovernor
