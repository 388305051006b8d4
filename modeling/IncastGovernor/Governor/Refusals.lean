import IncastGovernor.Governor.Window

/-! A refused evaluation leaves no trace but its count. What an operation answers and what
it leaves are functions of the governor without its refusal counters, so a run with refused
evaluations put in anywhere answers as the run without them. -/

namespace IncastGovernor

/-- A decision without the number of the state it was made in. -/
def Decision.unnumbered (decision : Decision) : Decision := { decision with stateGeneration := {} }

/-- A state without what a refused evaluation counts. -/
def GovernorState.uncounted (state : GovernorState) : GovernorState :=
  { state with refusalCount := 0, generation := {} }

namespace Governor

variable (g : Governor) (bundle : EvidenceBundle)

/-- The governor a refused evaluation leaves. -/
def countRefusal : Governor :=
  { g with state := { g.state with
      refusalCount := g.state.refusalCount + 1
      generation := g.state.generation.next } }

def uncounted : Governor := { g with state := g.state.uncounted }

@[simp] theorem uncounted_countRefusal : g.countRefusal.uncounted = g.uncounted := rfl

/-! ### The refused exit -/

/-- Every exit but the refused one names another outcome. -/
theorem outcome_refused_iff :
    (g.evaluate bundle).1.outcome = .refused ↔ ¬g.accepts bundle := by
  rcases evaluate_cases g bundle with ⟨hn, decision, reason, detail, he⟩ |
    ⟨ha, view, denial, _, _, he⟩ | ⟨ha, _, he⟩
  · simp [he, hn]
  · simp [he, ha]
  · have hne : (g.effectDecision bundle (g.effect bundle)).outcome ≠ .refused := by
      cases g.effect bundle <;> simp [effectDecision, heldDecision]
    simp [he, ha, hne]

theorem evaluate_of_refused (h : (g.evaluate bundle).1.outcome = .refused) :
    (g.evaluate bundle).2 = g.countRefusal := by
  obtain ⟨decision, reason, detail, he⟩ := evaluate_refused ((g.outcome_refused_iff bundle).mp h)
  rw [he]
  rfl

/-! ### An evaluation without the counters -/

@[simp] theorem uncounted_config : g.uncounted.config = g.config := rfl

@[simp] theorem uncounted_instant : g.uncounted.instant bundle = g.instant bundle := rfl

@[simp] theorem uncounted_draftDecision :
    g.uncounted.draftDecision bundle = g.draftDecision bundle := rfl

@[simp] theorem uncounted_bindingRefusal :
    g.uncounted.bindingRefusal bundle = g.bindingRefusal bundle := rfl

@[simp] theorem uncounted_authorityCheck :
    g.uncounted.authorityCheck bundle = g.authorityCheck bundle := rfl

@[simp] theorem uncounted_boundDecision :
    g.uncounted.boundDecision bundle = g.boundDecision bundle := rfl

@[simp] theorem uncounted_liveView : g.uncounted.liveView = g.liveView := rfl

@[simp] theorem uncounted_liveRecord : g.uncounted.liveRecord bundle = g.liveRecord bundle := rfl

@[simp] theorem uncounted_liveFence : g.uncounted.liveFence bundle = g.liveFence bundle := rfl

@[simp] theorem uncounted_windowClassification :
    g.uncounted.windowClassification bundle = g.windowClassification bundle := rfl

@[simp] theorem uncounted_classifiedDecision :
    g.uncounted.classifiedDecision bundle = g.classifiedDecision bundle := by
  unfold classifiedDecision
  rw [uncounted_boundDecision, uncounted_windowClassification]
  rfl

theorem uncounted_countedState :
    g.uncounted.countedState bundle = (g.countedState bundle).uncounted := by
  unfold countedState
  by_cases h : (g.windowClassification bundle).instantaneousKind.incident
  · have hu : (g.uncounted.windowClassification bundle).instantaneousKind.incident := h
    simp only [if_pos h, if_pos hu]
    rfl
  · have hu : ¬(g.uncounted.windowClassification bundle).instantaneousKind.incident := h
    simp only [if_neg h, if_neg hu]
    rfl

@[simp] theorem uncounted_recoveryVerdict :
    g.uncounted.recoveryVerdict bundle = g.recoveryVerdict bundle := by
  unfold recoveryVerdict
  simp only [uncounted_windowClassification, uncounted_liveView, uncounted_config,
    uncounted_countedState]
  rfl

@[simp] theorem uncounted_synthesis : g.uncounted.synthesis bundle = g.synthesis bundle := by
  have hrequest : g.uncounted.synthesisRequest bundle = g.synthesisRequest bundle := by
    unfold synthesisRequest
    simp only [uncounted_windowClassification, uncounted_liveRecord, uncounted_config,
      uncounted_recoveryVerdict, uncounted_authorityCheck, uncounted_instant]
    rfl
  unfold synthesis
  rw [hrequest]

@[simp] theorem uncounted_effect : g.uncounted.effect bundle = g.effect bundle := by
  have hs : g.uncounted.synthesizedEffect bundle = g.synthesizedEffect bundle := by
    unfold synthesizedEffect
    rw [uncounted_windowClassification, uncounted_synthesis, uncounted_liveRecord]
    rfl
  unfold effect
  rw [uncounted_liveRecord, uncounted_windowClassification, hs]
  rfl

@[simp] theorem uncounted_effectDecision (effect : Effect) :
    g.uncounted.effectDecision bundle effect = g.effectDecision bundle effect := by
  have hs : g.uncounted.synthesizedDecision bundle = g.synthesizedDecision bundle := by
    unfold synthesizedDecision
    simp only [uncounted_classifiedDecision, uncounted_config, uncounted_synthesis,
      uncounted_authorityCheck]
  have hh : ∀ record, g.uncounted.heldDecision bundle record = g.heldDecision bundle record := by
    intro record
    unfold heldDecision
    simp only [uncounted_classifiedDecision, uncounted_config, uncounted_authorityCheck]
  cases effect <;> simp only [effectDecision, hs, hh, uncounted_synthesis]

theorem uncounted_effectState (effect : Effect) :
    g.uncounted.effectState bundle effect = (g.effectState bundle effect).uncounted := by
  cases effect with
  | noAction live =>
    cases live
    · simp only [effectState, uncounted_countedState]
    · simp only [effectState, uncounted_countedState]
      rfl
  | _ =>
    simp only [effectState, uncounted_countedState]
    rfl

theorem uncounted_refuse (decision : Decision) (reason : RefusalReason) (detail : Text) :
    (g.uncounted.refuse decision reason detail).1.unnumbered =
        (g.refuse decision reason detail).1.unnumbered ∧
      (g.uncounted.refuse decision reason detail).2.uncounted =
        (g.refuse decision reason detail).2.uncounted := ⟨rfl, rfl⟩

theorem uncounted_fence (view : LiveView) (reason : RefusalReason) (detail : Text) :
    (g.uncounted.fence bundle view reason detail).1.unnumbered =
        (g.fence bundle view reason detail).1.unnumbered ∧
      (g.uncounted.fence bundle view reason detail).2.uncounted =
        (g.fence bundle view reason detail).2.uncounted := by
  unfold fence
  simp only [uncounted_countedState, uncounted_classifiedDecision, uncounted_instant,
    uncounted_config]
  exact ⟨rfl, rfl⟩

theorem uncounted_commit (effect : Effect) :
    (g.uncounted.commit bundle effect).1.unnumbered = (g.commit bundle effect).1.unnumbered ∧
      (g.uncounted.commit bundle effect).2.uncounted = (g.commit bundle effect).2.uncounted := by
  unfold commit
  simp only [uncounted_effectState, uncounted_effectDecision, uncounted_windowClassification,
    uncounted_config]
  exact ⟨rfl, rfl⟩

theorem uncounted_evaluate :
    (g.uncounted.evaluate bundle).1.unnumbered = (g.evaluate bundle).1.unnumbered ∧
      (g.uncounted.evaluate bundle).2.uncounted = (g.evaluate bundle).2.uncounted := by
  unfold evaluate
  rw [uncounted_bindingRefusal, uncounted_authorityCheck, uncounted_liveView,
    uncounted_liveFence, uncounted_draftDecision, uncounted_boundDecision, uncounted_effect]
  cases g.bindingRefusal bundle with
  | some denial => exact g.uncounted_refuse _ denial.1 denial.2
  | none =>
    by_cases hr : (g.authorityCheck bundle).reason = .none
    · simp only [ne_eq, hr, not_true_eq_false, if_false]
      cases g.liveView with
      | none => exact g.uncounted_commit bundle _
      | some view =>
        cases g.liveFence bundle with
        | none => exact g.uncounted_commit bundle _
        | some denial => exact g.uncounted_fence bundle view denial.1 denial.2
    · simp only [ne_eq, hr, not_false_eq_true, if_true]
      exact g.uncounted_refuse _ _ _

/-! ### What an operation answers -/

inductive Answer where
  | decision (decision : Decision)
  | status (status : Status)
  | retired (count : ℕ)
  | done

def Answer.unnumbered : Answer → Answer
  | .decision made => .decision made.unnumbered
  | answer => answer

def answer : Operation → Answer
  | .evaluate bundle => .decision (g.evaluate bundle).1
  | .configurePolicy policy now => .status (g.configurePolicy policy now).1
  | .bindAuthority epoch boot worker lease leaseExpiry =>
    .status (g.bindAuthority epoch boot worker lease leaseExpiry).1
  | .retire id now reason => .status (g.retire id now reason).1
  | .restoreState state => .status (g.restoreState state).1
  | .shutdown now => .retired (g.shutdown now).1
  | .reset => .done

theorem uncounted_configurePolicy (policy : GovernorPolicy) (now : Timestamp) :
    (g.uncounted.configurePolicy policy now).1 = (g.configurePolicy policy now).1 ∧
      (g.uncounted.configurePolicy policy now).2.uncounted =
        (g.configurePolicy policy now).2.uncounted := by
  unfold configurePolicy
  cases policy.validate with
  | error e => exact ⟨rfl, rfl⟩
  | ok u =>
    refine ⟨rfl, ?_⟩
    by_cases hc : g.state.policyGeneration ≠ policy.generation ∨ g.state.policy ≠ policy.id
    · have hu : g.uncounted.state.policyGeneration ≠ policy.generation ∨
          g.uncounted.state.policy ≠ policy.id := hc
      simp only [if_pos hc, if_pos hu]
      rfl
    · have hu : ¬(g.uncounted.state.policyGeneration ≠ policy.generation ∨
          g.uncounted.state.policy ≠ policy.id) := hc
      simp only [if_neg hc, if_neg hu]
      rfl

theorem uncounted_bindAuthority (epoch : EpochId) (boot : BootIncarnation) (worker : WorkerId)
    (lease : LeaseId) (leaseExpiry : Timestamp) :
    (g.uncounted.bindAuthority epoch boot worker lease leaseExpiry).1 =
        (g.bindAuthority epoch boot worker lease leaseExpiry).1 ∧
      (g.uncounted.bindAuthority epoch boot worker lease leaseExpiry).2.uncounted =
        (g.bindAuthority epoch boot worker lease leaseExpiry).2.uncounted := by
  unfold bindAuthority
  simp only
  split <;> exact ⟨rfl, rfl⟩

theorem uncounted_retire (id : InterventionId) (now : Timestamp) (reason : Text) :
    (g.uncounted.retire id now reason).1 = (g.retire id now reason).1 ∧
      (g.uncounted.retire id now reason).2.uncounted = (g.retire id now reason).2.uncounted := by
  have ht : g.uncounted.state.interventions = g.state.interventions := rfl
  unfold retire
  rw [ht]
  cases retireIn id now reason g.state.interventions <;> exact ⟨rfl, rfl⟩

theorem uncounted_restoreState (restored : GovernorState) :
    (g.uncounted.restoreState restored).1 = (g.restoreState restored).1 ∧
      (g.uncounted.restoreState restored).2.uncounted =
        (g.restoreState restored).2.uncounted := by
  unfold restoreState
  cases restored.validate <;> exact ⟨rfl, rfl⟩

/-- No operation answers by the counters, or leaves anything by them but the counters. -/
theorem uncounted_step (operation : Operation) :
    (g.uncounted.answer operation).unnumbered = (g.answer operation).unnumbered ∧
      (g.uncounted.step operation).uncounted = (g.step operation).uncounted := by
  cases operation with
  | evaluate bundle =>
    obtain ⟨ha, hs⟩ := g.uncounted_evaluate bundle
    refine ⟨?_, hs⟩
    show Answer.decision _ = Answer.decision _
    rw [ha]
  | configurePolicy policy now =>
    obtain ⟨ha, hs⟩ := g.uncounted_configurePolicy policy now
    refine ⟨?_, hs⟩
    show Answer.status _ = Answer.status _
    rw [ha]
  | bindAuthority epoch boot worker lease leaseExpiry =>
    obtain ⟨ha, hs⟩ := g.uncounted_bindAuthority epoch boot worker lease leaseExpiry
    refine ⟨?_, hs⟩
    show Answer.status _ = Answer.status _
    rw [ha]
  | retire id now reason =>
    obtain ⟨ha, hs⟩ := g.uncounted_retire id now reason
    refine ⟨?_, hs⟩
    show Answer.status _ = Answer.status _
    rw [ha]
  | restoreState restored =>
    obtain ⟨ha, hs⟩ := g.uncounted_restoreState restored
    refine ⟨?_, hs⟩
    show Answer.status _ = Answer.status _
    rw [ha]
  | shutdown now => exact ⟨rfl, rfl⟩
  | reset => exact ⟨rfl, rfl⟩

/-- Governors that differ in the counters only answer alike and stay so. -/
theorem step_congr_uncounted {a b : Governor} (h : a.uncounted = b.uncounted)
    (operation : Operation) :
    (a.answer operation).unnumbered = (b.answer operation).unnumbered ∧
      (a.step operation).uncounted = (b.step operation).uncounted := by
  obtain ⟨haa, has⟩ := a.uncounted_step operation
  obtain ⟨hba, hbs⟩ := b.uncounted_step operation
  rw [h] at haa has
  exact ⟨haa.symm.trans hba, has.symm.trans hbs⟩

/-! ### Runs with refused evaluations put in -/

/-- An operation of a run, or an evaluation put in between two of them. -/
inductive Padded where
  | own (operation : Operation)
  | inserted (bundle : EvidenceBundle)

namespace Padded

def operation : Padded → Operation
  | .own operation => operation
  | .inserted bundle => .evaluate bundle

/-- The run without what was put in. -/
def own? : Padded → Option Operation
  | .own operation => some operation
  | .inserted _ => none

end Padded

/-- The answers of a run. -/
def answers : Governor → List Operation → List Answer
  | _, [] => []
  | g, operation :: rest => (g.answer operation).unnumbered :: answers (g.step operation) rest

/-- The answers of a padded run to the operations of its own. -/
def ownAnswers : Governor → List Padded → List Answer
  | _, [] => []
  | g, .own operation :: rest =>
    (g.answer operation).unnumbered :: ownAnswers (g.step operation) rest
  | g, .inserted bundle :: rest => ownAnswers (g.step (.evaluate bundle)) rest

/-- Every evaluation put in comes out refused. -/
def insertsRefused : Governor → List Padded → Prop
  | _, [] => True
  | g, .own operation :: rest => insertsRefused (g.step operation) rest
  | g, .inserted bundle :: rest =>
    (g.evaluate bundle).1.outcome = .refused ∧ insertsRefused (g.step (.evaluate bundle)) rest

/-- A padded run follows the run without what was put in, up to the counters. -/
theorem ownAnswers_eq {a b : Governor} (h : a.uncounted = b.uncounted) {padded : List Padded}
    (hp : a.insertsRefused padded) :
    a.ownAnswers padded = b.answers (padded.filterMap Padded.own?) ∧
      (Foundation.run step a (padded.map Padded.operation)).uncounted =
        (Foundation.run step b (padded.filterMap Padded.own?)).uncounted := by
  induction padded generalizing a b with
  | nil => exact ⟨rfl, h⟩
  | cons entry rest ih =>
    cases entry with
    | own operation =>
      obtain ⟨ha, hs⟩ := step_congr_uncounted h operation
      obtain ⟨hrest, hrun⟩ := ih hs hp
      refine ⟨?_, hrun⟩
      show _ :: _ = _ :: _
      rw [ha, hrest]
    | inserted bundle =>
      obtain ⟨hr, hp⟩ := hp
      have hs : (a.step (.evaluate bundle)).uncounted = b.uncounted := by
        show (a.evaluate bundle).2.uncounted = _
        rw [a.evaluate_of_refused bundle hr, uncounted_countRefusal, h]
      exact ih hs hp

/-- A refused evaluation changes the state in its two counters only, and evaluations that
come out refused, put in anywhere, change no other answer of a run but the number of the
state it was given in. -/
theorem refusals_leave_no_trace (config : GovernorConfig) :
    (∀ g bundle, (Governor.evaluate g bundle).1.outcome = .refused →
      (g.evaluate bundle).2 = g.countRefusal) ∧
    ∀ padded, (create config).insertsRefused padded →
      (create config).ownAnswers padded =
        (create config).answers (padded.filterMap Padded.own?) :=
  ⟨evaluate_of_refused, fun _ hp => (ownAnswers_eq rfl hp).1⟩

/-- A window of another epoch. -/
def foreignWindow : EvidenceBundle := { incidentWindow with epoch := ⟨2⟩ }

/-- A window of another epoch before an incident and after it. -/
theorem refusals_leave_no_trace_foreign :
    ((create sampleConfig).evaluate foreignWindow).2 = (create sampleConfig).countRefusal ∧
      (create sampleConfig).ownAnswers [.inserted foreignWindow, .own (.evaluate incidentWindow),
          .inserted foreignWindow, .own (.evaluate (calmWindow 2 2000000000))] =
        (create sampleConfig).answers
          [.evaluate incidentWindow, .evaluate (calmWindow 2 2000000000)] := by
  obtain ⟨hstate, hanswers⟩ := refusals_leave_no_trace sampleConfig
  refine ⟨hstate _ _ (by decide +kernel), ?_⟩
  exact hanswers [.inserted foreignWindow, .own (.evaluate incidentWindow),
    .inserted foreignWindow, .own (.evaluate (calmWindow 2 2000000000))]
    ⟨by decide +kernel, by decide +kernel, trivial⟩

end Governor

end IncastGovernor
