import IncastGovernor.Worker.Enforcement

/-! What the state directories of a fleet hold. A program publishes its decision before it commits
the state behind it, so whatever a later start recovers was in the directory before, or is behind a
decision that the coordinator answered. -/

namespace IncastGovernor

open Foundation

/-! ### Commits of a history -/

/-- The state that an event tries to commit. -/
def SessionEvent.commits : SessionEvent → Option GovernorState
  | .commit state _ | .crashDuring state _ _ => some state
  | _ => none

theorem possible_cons {state tried : GovernorState} {acknowledged : Bool}
    {earlier : List (GovernorState × Bool)}
    (h : state ∈ possible ((tried, acknowledged) :: earlier)) :
    state ∈ possible earlier ∨ tried = state := by
  cases acknowledged with
  | true => exact Or.inr (List.mem_singleton.mp h).symm
  | false => exact (List.mem_cons.mp h).symm.imp_right Eq.symm

namespace History

variable {h : History} {event : SessionEvent}

/-- An event adds to what the register may hold the state that it tries to commit, if any. -/
theorem step_possible {state : GovernorState} (hm : state ∈ possible (h.step event).attempts) :
    state ∈ possible h.attempts ∨ event.commits = some state := by
  unfold step at hm
  cases hs : h.store with
  | none =>
    rw [hs] at hm
    cases event with
    | session config created listed =>
      refine Or.inl ?_
      simp only at hm
      split at hm <;> exact hm
    | _ => exact Or.inl hm
  | some store =>
    rw [hs] at hm
    cases event with
    | commit tried faults => exact (possible_cons hm).imp_right (congrArg some)
    | crashDuring tried faults keep => exact (possible_cons hm).imp_right (congrArg some)
    | _ => exact Or.inl hm

/-- A session that does not come up leaves the history where it is. -/
theorem step_session_refused {config : DurableConfig} {created listed : Bool} {error : Error}
    {store : DurableStore} (hr : h.recover config created listed = (.error error, store)) :
    h.step (.session config created listed) = h := by
  unfold step
  cases hs : h.store with
  | none => simp only [hr]
  | some running => rfl

theorem durable_closed (hd : h.Durable) : Durable { h with store := none } :=
  ⟨hd.holds, nofun⟩

end History

/-! ### The history of a program -/

namespace WorkerProgram

variable {g g' : WorkerProgram} {p p' : Process}

/-- What an event of a program does to its state directory. -/
def stores (g : WorkerProgram) : FleetEvent → Option SessionEvent
  | .opened _ created listed =>
    match g.stage with
    | .opening => g.options.durable.map fun config => .session config created listed
    | _ => none
  | .journal _ faults =>
    match g.stage with
    | .journalling => g.options.durable.map fun _ => .commit g.governor.state faults
    | _ => none
  | .crash _ keep => some (.crash keep)
  | .crashDuring _ faults keep =>
    match g.stage with
    | .journalling => some (.crashDuring g.governor.state faults keep)
    | _ => none
  | _ => none

theorem next_history (g : WorkerProgram) : g.next.history = g.history := by
  unfold next
  split_ifs <;> rfl

/-- A program that goes on by itself: between two calls, with nothing answered anew. -/
structure GoesOn (g next : WorkerProgram) : Prop where
  answered : next.answered = g.answered
  evaluations : next.evaluations = g.evaluations
  stage : next.stage = .deciding ∨ ∃ code, next.stage = .exited code

theorem goesOn_next {next : WorkerProgram} (hanswered : next.answered = g.answered)
    (hevaluations : next.evaluations = g.evaluations) : g.GoesOn next.next := by
  unfold WorkerProgram.next
  split_ifs
  · exact ⟨hanswered, hevaluations, Or.inl rfl⟩
  · exact ⟨hanswered, hevaluations, Or.inr ⟨_, rfl⟩⟩

theorem goesOn_exit {next : WorkerProgram} (hanswered : next.answered = g.answered)
    (hevaluations : next.evaluations = g.evaluations) (code : ℕ) : g.GoesOn (next.exit code) :=
  ⟨hanswered, hevaluations, Or.inr ⟨code, rfl⟩⟩

theorem opened_goesOn (g : WorkerProgram) (created listed : Bool) :
    g.GoesOn (g.opened created listed) := by
  unfold opened
  simp only
  split
  · exact goesOn_next (by rfl) (by rfl)
  · split
    · exact goesOn_exit (by rfl) (by rfl) 1
    · split_ifs
      · exact goesOn_exit (by rfl) (by rfl) 1
      · split
        · exact goesOn_exit (by rfl) (by rfl) 1
        · exact goesOn_next (by rfl) (by rfl)
      · exact goesOn_next (by rfl) (by rfl)

theorem journalled_goesOn (g : WorkerProgram) (faults : CommitFaults) :
    g.GoesOn (g.journalled faults) := by
  unfold journalled
  simp only
  split
  · split
    · exact goesOn_exit (by rfl) (by rfl) 1
    · exact goesOn_next (by rfl) (by rfl)
  · exact goesOn_next (by rfl) (by rfl)

/-- The start of a program is a session of its directory. -/
theorem opened_history (g : WorkerProgram) (created listed : Bool) :
    (g.opened created listed).history =
      (g.options.durable.map fun config => SessionEvent.session config created listed).elim g.history
        g.history.step := by
  unfold opened
  simp only
  cases g.options.durable with
  | none => exact next_history _
  | some config =>
    simp only [Option.map_some, Option.elim_some]
    split
    · next error store hrecover =>
      exact (History.step_session_refused hrecover).symm
    · split_ifs
      · rfl
      · split
        · rfl
        · exact next_history _
      · exact next_history _

theorem journalled_history (g : WorkerProgram) (faults : CommitFaults) :
    (g.journalled faults).history =
      (g.options.durable.map fun _ => SessionEvent.commit g.governor.state faults).elim g.history
        g.history.step := by
  unfold journalled
  simp only
  cases g.options.durable with
  | none => exact next_history _
  | some config =>
    simp only [Option.map_some, Option.elim_some]
    cases hstore : g.history.store with
    | none =>
      rw [next_history]
      show g.history = g.history.step _
      unfold History.step
      rw [hstore]
    | some store =>
      simp only
      split
      · rfl
      · exact next_history _

/-! ### Answers -/

/-- The program left the state behind a decision, and its process has an answer to that one. -/
def learned (g : WorkerProgram) (p : Process) (state : GovernorState) : Prop :=
  ∃ e ∈ g.evaluations, state = (e.1.evaluate e.2).2.state ∧ ∃ answer ∈ p.answers,
    ∃ w : GovernorWorker, w.config = p.worker.config ∧
      answer.1 = w.decisionMessage (e.1.evaluate e.2).1

/-- A program commits no state but behind an answer. -/
structure Learns (g : WorkerProgram) (p : Process) : Prop where
  answered : ∀ state ∈ g.answered, g.learned p state
  publishing : g.stage = .publishing → ∃ e ∈ g.evaluations,
    p.calling = some (.publish (e.1.evaluate e.2).1) ∧ g.governor = (e.1.evaluate e.2).2
  journalling : g.stage = .journalling → g.governor.state ∈ g.answered

theorem learned_of_more {state : GovernorState} (h : g.learned p state)
    (hevaluations : ∀ e ∈ g.evaluations, e ∈ g'.evaluations)
    (hanswers : ∀ answer ∈ p.answers, answer ∈ p'.answers)
    (hconfig : p'.worker.config = p.worker.config) : g'.learned p' state := by
  obtain ⟨e, he, hstate, answer, hanswer, w, hw, hmessage⟩ := h
  exact ⟨e, hevaluations e he, hstate, answer, hanswers answer hanswer, w, hw.trans hconfig.symm,
    hmessage⟩

/-- A program that has not published anew, beside its process. -/
theorem Learns.rest (h : g.Learns p) (hanswered : g'.answered = g.answered)
    (hevaluations : ∀ e ∈ g.evaluations, e ∈ g'.evaluations)
    (hanswers : ∀ answer ∈ p.answers, answer ∈ p'.answers)
    (hconfig : p'.worker.config = p.worker.config) (hpublishing : g'.stage ≠ .publishing)
    (hjournalling : g'.stage ≠ .journalling) : g'.Learns p' where
  answered := by
    intro state hm
    rw [hanswered] at hm
    exact learned_of_more (h.answered state hm) hevaluations hanswers hconfig
  publishing := fun hstage => absurd hstage hpublishing
  journalling := fun hstage => absurd hstage hjournalling

theorem Learns.goesOn (h : g.Learns p) (hnext : g.GoesOn g') : g'.Learns p := by
  refine h.rest hnext.answered (fun e he => hnext.evaluations ▸ he) (fun _ ha => ha) rfl ?_ ?_
  · rcases hnext.stage with hstage | ⟨code, hstage⟩ <;> simp [hstage]
  · rcases hnext.stage with hstage | ⟨code, hstage⟩ <;> simp [hstage]

/-- The decision goes out with the state behind it. -/
theorem Learns.called (h : g.Learns p) {bundle : EvidenceBundle} {call : Call}
    (hcall : g.calls bundle = some call) (sent : Bool) :
    (g.called bundle false).Learns p ∧ (g.called bundle sent).Learns (p.start call sent) := by
  have hconfig : (p.start call sent).worker.config = p.worker.config := p.worker.sending_config call
  unfold calls at hcall
  unfold WorkerProgram.called
  cases hstage : g.stage with
  | connecting | requesting =>
    refine ⟨h.rest rfl (fun _ he => he) (fun _ ha => ha) rfl nofun nofun, ?_⟩
    cases sent
    · exact h.rest rfl (fun _ he => he) (fun _ ha => ha) hconfig nofun nofun
    · exact h.rest rfl (fun _ he => he) (fun _ ha => ha) hconfig nofun nofun
  | deciding =>
    rw [hstage] at hcall
    obtain rfl := Option.some.inj hcall
    have hmore : ∀ e ∈ g.evaluations, e ∈ g.evaluations ++ [(g.governor, bundle)] :=
      fun e he => List.mem_append_left _ he
    refine ⟨h.rest rfl hmore (fun _ ha => ha) rfl nofun nofun, ?_⟩
    cases sent
    · exact h.rest rfl hmore (fun _ ha => ha) hconfig nofun nofun
    · refine ⟨fun state hm => ?_, fun _ => ?_, nofun⟩
      · exact learned_of_more (h.answered state hm) hmore (fun _ ha => ha) hconfig
      · exact ⟨(g.governor, bundle), List.mem_append_right _ List.mem_cons_self, rfl, rfl⟩
  | _ =>
    rw [hstage] at hcall
    cases hcall

section Answers

variable {call : Call} {outcome : Outcome Frame}

theorem Learns.behind (h : g.Learns p) (ha : Answered p call outcome p') {next : WorkerProgram}
    (hanswered : next.answered = g.answered) (hevaluations : next.evaluations = g.evaluations)
    (hpublishing : next.stage ≠ .publishing) (hjournalling : next.stage ≠ .journalling) :
    next.Learns p' :=
  h.rest hanswered (fun _ he => hevaluations ▸ he) ha.answers ha.config hpublishing hjournalling

theorem Learns.exits (h : g.Learns p) (ha : Answered p call outcome p') (code : ℕ) :
    (g.exit code).Learns p' :=
  h.behind ha rfl rfl nofun nofun

/-- The answer to the decision lets its state be committed. -/
theorem Learns.acknowledged (h : g.Learns p) (ha : Answered p call outcome p')
    (hstage : g.stage = .publishing) :
    (g.settled p'.worker (p.worker.settle call outcome).2).Learns p' := by
  obtain ⟨e, he, hdecision, hgovernor⟩ := h.publishing hstage
  obtain rfl := Option.some.inj (ha.calling.symm.trans hdecision)
  have hends := ha.ends
  have hexit := h.exits ha
  unfold WorkerProgram.settled
  rw [hstage]
  generalize (p.worker.settle (.publish (e.1.evaluate e.2).1) outcome).2 = answer at hends ⊢
  cases answer with
  | ack acked =>
    cases acked with
    | ok ack =>
      obtain ⟨-, hmore⟩ := hends.resolve_left fun hboth => by cases hboth.2.1
      show (if ¬ack.accepted ∧ p'.worker.fenced then g.exit 3 else _ : WorkerProgram).Learns p'
      by_cases hfenced : ¬ack.accepted ∧ p'.worker.fenced
      · rw [if_pos hfenced]
        exact hexit 3
      · rw [if_neg hfenced]
        refine ⟨fun state hm => ?_, nofun, fun _ => List.mem_append_right _ List.mem_cons_self⟩
        rcases List.mem_append.mp hm with hbefore | hlast
        · exact learned_of_more (h.answered state hbefore) (fun _ he => he) ha.answers ha.config
        · obtain rfl := List.mem_singleton.mp hlast
          have hanswer : (p.worker.decisionMessage (e.1.evaluate e.2).1, ack) ∈ p'.answers := by
            rw [hmore]
            exact List.mem_append_right _ List.mem_cons_self
          exact ⟨e, he, by rw [hgovernor], _, hanswer, p.worker, ha.config.symm, rfl⟩
    | error error => exact hexit 4
  | _ => exact hexit 4

/-- The program behind an answer has committed nothing yet. -/
theorem Learns.settled (h : g.Learns p) (htracks : g.Tracks p) (ha : Answered p call outcome p') :
    (g.settled p'.worker (p.worker.settle call outcome).2).Learns p' := by
  have hcalling := ha.calling
  have hstands := htracks.stands
  unfold WorkerProgram.stands at hstands
  cases hstage : g.stage with
  | publishing => exact h.acknowledged ha hstage
  | handshaking =>
    unfold WorkerProgram.settled
    rw [hstage]
    generalize (p.worker.settle call outcome).2 = answer
    cases answer with
    | status status =>
      cases status with
      | ok u => exact h.behind ha rfl rfl nofun nofun
      | error error => exact h.exits ha 1
    | _ => exact h.exits ha 1
  | acquiring =>
    unfold WorkerProgram.settled
    rw [hstage]
    generalize (p.worker.settle call outcome).2 = answer
    cases answer with
    | grant granted =>
      cases granted with
      | ok grant => exact h.behind ha rfl rfl nofun nofun
      | error error => exact h.exits ha 2
    | _ => exact h.exits ha 2
  | exited code =>
    have hkept : g.settled p'.worker (p.worker.settle call outcome).2 = g := by
      simp only [WorkerProgram.settled, hstage]
    rw [hkept]
    exact h.behind ha rfl rfl (by simp [hstage]) (by simp [hstage])
  | connecting | requesting =>
    rw [hstage] at hstands
    rw [hstands.1] at hcalling
    cases hcalling
  | _ =>
    rw [hstage] at hstands
    rw [hstands.1.1] at hcalling
    cases hcalling

end Answers

theorem Learns.moves (h : g.Learns p) (htracks : g.Tracks p) (hm : Moves g p g' p') :
    g'.Learns p' := by
  cases hm with
  | stays => exact h
  | failed bundle call calls => exact (h.called calls false).1
  | called bundle call sent calls => exact (h.called calls sent).2
  | settled call outcome p' calling worker ends => exact h.settled htracks ⟨calling, worker, ends⟩
  | opened created listed stage => exact h.goesOn (opened_goesOn g created listed)
  | journalled faults stage => exact h.goesOn (journalled_goesOn g faults)
  | crashed history => exact h.rest rfl (fun _ he => he) (fun _ ha => ha) rfl nofun nofun

/-- No answer is forgotten. -/
theorem Moves.answered (hm : Moves g p g' p') : ∀ state ∈ g.answered, state ∈ g'.answered := by
  intro state hstate
  cases hm with
  | stays => exact hstate
  | failed bundle call calls =>
    unfold WorkerProgram.called
    cases g.stage <;> exact hstate
  | called bundle call sent calls =>
    unfold WorkerProgram.called
    cases g.stage <;> cases sent <;> exact hstate
  | settled call outcome p' calling worker ends =>
    unfold WorkerProgram.settled
    split
    case h_5 =>
      split
      · exact hstate
      · exact List.mem_append_left _ hstate
    all_goals exact hstate
  | opened created listed stage => exact (opened_goesOn g created listed).answered ▸ hstate
  | journalled faults stage => exact (journalled_goesOn g faults).answered ▸ hstate
  | crashed history => exact hstate

/-- Whatever a program commits was answered. -/
theorem Learns.commits (h : g.Learns p) {event : FleetEvent} {e : SessionEvent}
    (he : g.stores event = some e) {state : GovernorState} (hcommits : e.commits = some state) :
    state ∈ g.answered := by
  cases event with
  | opened id created listed =>
    simp only [stores] at he
    split at he
    · obtain ⟨config, -, rfl⟩ := Option.map_eq_some_iff.mp he
      cases hcommits
    · cases he
  | journal id faults =>
    simp only [stores] at he
    split at he
    · next hstage =>
      obtain ⟨config, -, rfl⟩ := Option.map_eq_some_iff.mp he
      obtain rfl := Option.some.inj hcommits
      exact h.journalling hstage
    · cases he
  | crash id keep =>
    obtain rfl := Option.some.inj he
    cases hcommits
  | crashDuring id faults keep =>
    simp only [stores] at he
    split at he
    · next hstage =>
      obtain rfl := Option.some.inj he
      obtain rfl := Option.some.inj hcommits
      exact h.journalling hstage
    · cases he
  | _ => cases he

end WorkerProgram

/-! ### The directories of a fleet -/

namespace Fleet

variable {f f' : Fleet} {event : FleetEvent}

/-- An event of a program does to its directory what it stores. -/
theorem program_history (f : Fleet) (id : ℕ) (event : FleetEvent) :
    (f.program id event).history =
      ((f.programs id).stores event).elim (f.programs id).history (f.programs id).history.step := by
  cases event with
  | call id' bundle sent =>
    simp only [program]
    split
    · rfl
    · unfold WorkerProgram.called
      split <;> (try split_ifs) <;> rfl
  | settle id' lost =>
    simp only [program]
    split
    · rfl
    · unfold WorkerProgram.settled
      split <;> (try split_ifs) <;> rfl
  | opened id' created listed =>
    simp only [program, WorkerProgram.stores]
    cases (f.programs id).stage with
    | opening => exact (f.programs id).opened_history created listed
    | _ => rfl
  | journal id' faults =>
    simp only [program, WorkerProgram.stores]
    cases (f.programs id).stage with
    | journalling => exact (f.programs id).journalled_history faults
    | _ => rfl
  | crash id' keep => rfl
  | crashDuring id' faults keep =>
    simp only [program, WorkerProgram.stores]
    cases (f.programs id).stage <;> rfl
  | _ => rfl

/-- Every commit of the event, if it is not refused for its size, is safe. -/
def commitsSafely (f : Fleet) (event : FleetEvent) : Prop :=
  ∀ id ∈ event.owner, ∀ e ∈ (f.programs id).stores event, (f.programs id).history.commitsSafely e

instance (f : Fleet) : DecidablePred f.commitsSafely := fun event =>
  inferInstanceAs (Decidable (∀ id ∈ event.owner, ∀ e ∈ (f.programs id).stores event,
    (f.programs id).history.commitsSafely e))

/-- Every directory holds its commits, and none but those it held before and those behind an
answer. -/
structure Journals (homes : ℕ → History) (f : Fleet) : Prop where
  tracked : f.Tracked
  learns : ∀ id, (f.programs id).Learns (f.deployment.processes id)
  durable : ∀ id, (f.programs id).history.Durable
  kept : ∀ id, ∀ state ∈ possible (f.programs id).history.attempts,
    state ∈ possible (homes id).attempts ∨ state ∈ (f.programs id).answered

/-- The history of a program behind an event: as it was, or a step on. -/
theorem perform_history (hs : f.perform event = some f') (id : ℕ) :
    (f'.programs id).history = (f.programs id).history ∨
      event.owner = some id ∧ ∃ e, (f.programs id).stores event = some e ∧
        (f'.programs id).history = (f.programs id).history.step e := by
  unfold Fleet.perform at hs
  obtain ⟨deployment, -, rfl⟩ := Option.map_eq_some_iff.mp hs
  cases howner : event.owner with
  | none => exact Or.inl rfl
  | some owner =>
    by_cases heq : id = owner
    · subst heq
      have hhistory := f.program_history id event
      cases hstores : (f.programs id).stores event with
      | none =>
        rw [hstores] at hhistory
        refine Or.inl ?_
        simpa using hhistory
      | some e =>
        rw [hstores] at hhistory
        exact Or.inr ⟨rfl, e, rfl, by simpa using hhistory⟩
    · refine Or.inl ?_
      simp only [Function.update_of_ne heq]

theorem Journals.step {homes : ℕ → History} (h : f.Journals homes) (hsafe : f.commitsSafely event)
    (hs : f.perform event = some f') : f'.Journals homes := by
  have hmoves := perform_moves h.tracked hs
  refine ⟨h.tracked.step hs, fun id => (h.learns id).moves (h.tracked id) (hmoves id),
    fun id => ?_, fun id state hm => ?_⟩
  · rcases perform_history hs id with hsame | ⟨howner, e, he, hstep⟩
    · rw [hsame]
      exact h.durable id
    · rw [hstep]
      exact History.durable_step (h.durable id) e (hsafe id howner e he)
  · have hbefore : state ∈ possible (f.programs id).history.attempts →
        state ∈ possible (homes id).attempts ∨ state ∈ (f'.programs id).answered := fun hm =>
      (h.kept id state hm).imp_right ((hmoves id).answered state)
    rcases perform_history hs id with hsame | ⟨-, e, he, hstep⟩
    · rw [hsame] at hm
      exact hbefore hm
    · rw [hstep] at hm
      rcases History.step_possible hm with hold | hcommits
      · exact hbefore hold
      · exact Or.inr ((hmoves id).answered state ((h.learns id).commits he hcommits))

section Runs

variable {config : CoordinatorConfig} {environment : Coordinator.StartEnvironment}
  {disk : Option Text} {options : ℕ → WorkerOptions} {homes : ℕ → History}

theorem journals_launch (hhomes : ∀ id, (homes id).Durable) :
    ∀ f ∈ launch config environment disk options homes, f.Journals homes := by
  intro f hf
  obtain ⟨-, hprograms⟩ := launch_eq_some hf
  refine ⟨tracked_launch f hf, fun id => ?_, fun id => ?_, fun id state hm => ?_⟩
  · rw [hprograms]
    exact ⟨nofun, nofun, nofun⟩
  · rw [hprograms]
    exact History.durable_closed (hhomes id)
  · rw [hprograms] at hm
    exact Or.inl hm

theorem run_journals (hhomes : ∀ id, (homes id).Durable) {events : List FleetEvent}
    (hsafe : ∀ call ∈ runCalls config environment disk options homes events, ∀ f ∈ call.1,
      f.commitsSafely call.2) :
    ∀ f ∈ runTo config environment disk options homes events, f.Journals homes :=
  run_invariant_of_calls (P := fun s : Option Fleet => ∀ f ∈ s, f.Journals homes)
    (C := fun s event => ∀ f ∈ s, f.commitsSafely event)
    (fun s event h hsafe f' hf' => by
      obtain ⟨f, rfl, hs⟩ := Option.bind_eq_some_iff.mp hf'
      exact (h f rfl).step (hsafe f rfl) hs)
    (journals_launch hhomes) hsafe

/-- The decision that left the state is in the coordinator's log of those it answered. -/
def delivered (f : Fleet) (config : WorkerConfig) (id : ℕ) (state : GovernorState) : Prop :=
  ∃ e ∈ (f.programs id).evaluations, state = (e.1.evaluate e.2).2.state ∧
    ∃ (w : GovernorWorker) (accepted : Bool), w.config = config ∧
      ((w.decisionMessage (e.1.evaluate e.2).1).delivered, accepted) ∈ f.deployment.decisions

/-- What a process has learned the coordinator has in its log. -/
theorem delivered_of_learned {id : ℕ} {config : WorkerConfig} {state : GovernorState}
    (h : (f.programs id).learned (f.deployment.processes id) state)
    (hconfig : (f.deployment.processes id).worker.config = config)
    (hdelivered : (f.deployment.processes id).Delivered config f.deployment.decisions) :
    f.delivered config id state := by
  obtain ⟨e, he, hstate, answer, hanswer, w, hw, hmessage⟩ := h
  have htold : (answer.1.delivered, answer.2.accepted) ∈
      told (f.deployment.processes id).answers := List.mem_map_of_mem hanswer
  have hlog := List.mem_of_mem_filter (hdelivered.told_prefix.subset htold)
  rw [hmessage] at hlog
  exact ⟨e, he, hstate, w, answer.2.accepted, hw.trans hconfig, hlog⟩

/-- Over every interleaving of a fleet on directories that hold their commits, with crashes at any
point, as long as every commit is safe: what a start recovers of a program's directory is a state
that was there before the program, or one behind a decision that the coordinator answered. -/
theorem run_recovers_delivered (config : CoordinatorConfig)
    (environment : Coordinator.StartEnvironment) (disk : Option Text) (options : ℕ → WorkerOptions)
    (homes : ℕ → History) (events : List FleetEvent)
    (hd : distinctIncarnations (fun id => (options id).worker) (callers events))
    (h : withinEpochs config environment disk events) (hhomes : ∀ id, (homes id).Durable)
    (hsafe : ∀ call ∈ runCalls config environment disk options homes events, ∀ f ∈ call.1,
      f.commitsSafely call.2) :
    ∀ f ∈ runTo config environment disk options homes events, ∀ id ∈ callers events,
      ∀ durable created listed,
        ∀ report ∈ ((f.programs id).history.recover durable created listed).1.toOption,
          ∃ state, report.state = clearAuthority state ∧
            (state ∈ possible (homes id).attempts ∨ f.delivered (options id).worker id state) := by
  intro f hf id hid durable created listed report hreport
  have hjournals := run_journals hhomes hsafe f hf
  obtain ⟨state, hpossible, hstate⟩ :=
    History.recoversCommitted_of_durable (hjournals.durable id) (.session durable created listed)
      report hreport
  refine ⟨state, hstate, (hjournals.kept id state hpossible).imp_right fun hanswered => ?_⟩
  have hholds := run_holds (level_rules hd) Deployment.level_launch h f hf
  obtain ⟨stage, -, hcoherent, hlevel⟩ := hholds.processes id
  exact delivered_of_learned ((hjournals.learns id).answered state hanswered) hcoherent.config
    ((hlevel.delivers hid).delivered hlevel.numbered fun hcalling =>
      (hcoherent.agrees.resting_of_idle hcalling).1)

end Runs

theorem serving_calls : 0 ∈ callers serving :=
  ⟨{}, true, by simp [serving, undisturbed]⟩

theorem run_recovers_delivered_serving :
    ∃ f, runTo {} {} none sampleOptions (fun _ => {}) serving = some f ∧ ∃ report,
      ((f.programs 0).history.recover { directory := ascii "d" } true true).1.toOption =
          some report ∧
        report.recoveredCommittedState = true ∧
        ∃ state, report.state = clearAuthority state ∧
          (state ∈ possible [] ∨ f.delivered (sampleOptions 0).worker 0 state) := by
  have hrecovers : (runTo {} {} none sampleOptions (fun _ => {}) serving).any (fun f =>
      ((f.programs 0).history.recover { directory := ascii "d" } true true).1.toOption.any
        fun report => report.recoveredCommittedState) = true := by
    decide +kernel
  obtain ⟨f, hf, hreports⟩ := (Option.any_eq_true _ _).mp hrecovers
  obtain ⟨report, hreport, hrecovered⟩ := (Option.any_eq_true _ _).mp hreports
  exact ⟨f, hf, report, hreport, hrecovered,
    run_recovers_delivered {} {} none sampleOptions (fun _ => {}) serving serving_distinct
      serving_within (fun _ => History.durable_empty) (by decide +kernel) f hf 0 serving_calls
      { directory := ascii "d" } true true report hreport⟩

end Fleet

end IncastGovernor
