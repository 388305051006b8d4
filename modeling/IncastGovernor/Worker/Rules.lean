import IncastGovernor.Worker.Settling

/-! The rule for invariants of a deployment. What holds of the coordinator with its logs, and of
every process at the stage of its exchange, is kept by every event if it is kept by each of the
ways on: a section of an operator, a turn of an exchange, as its own process and as the others
see it, and the start and the end of a call. -/

namespace IncastGovernor

open Foundation

open Coordinator (Section)

/-- The coordinator with the grants it sent, the latest first, and the decisions it answered. -/
structure Board where
  coordinator : Coordinator
  grants : List MessageLeaseGrant := []
  decisions : List (MessageDecisionPublish × Bool) := []

namespace Board

/-- The board behind a section, if there is one. -/
def advance (b : Board) (c' : Coordinator) : Option Section → Board
  | none => { b with coordinator := c' }
  | some s =>
    { coordinator := c'
      grants := (b.coordinator.granted s).toList ++ b.grants
      decisions := b.decisions ++ b.coordinator.published s }

end Board

def Deployment.board (d : Deployment) : Board :=
  { coordinator := d.coordinator, grants := d.grants, decisions := d.decisions }

/-- The stage of a process behind the start of a call: a dead session stays one unless the call
opens another. -/
def Process.startStage (p : Process) (stage : Stage) (call : Call) (sent : Bool) : Stage :=
  match call, stage with
  | .connectAndHandshake, _ | _, .idle =>
    if sent then .requested ((p.worker.sending call).frame call) else .idle
  | _, _ => .dropped

/-- The process makes no call, and can make one. -/
def Process.free (p : Process) : Prop := p.calling = none ∧ p.ended = false

/-- The obligations of an invariant `I` of the board and `A` of the processes, for the sections
and the calls a run may make. -/
structure Rules (I : Board → Prop) (A : ℕ → Board → Process → Stage → Prop)
    (allowed : Coordinator → Section → Prop) (made : ℕ → Call → Prop) : Prop where
  /-- A free process stands between two exchanges, and what is requested is its call. -/
  quiet : ∀ id b p stage, A id b p stage → p.calling = none → stage = .idle ∨ stage = .dropped
  request : ∀ id b p frame, A id b p (.requested frame) → ∃ call, frame = p.worker.frame call
  operated : ∀ b s c', I b → s.operates = true → allowed b.coordinator s →
    b.coordinator.perform s = some c' →
      I (b.advance c' (some s)) ∧
        ∀ id p stage, A id b p stage → A id (b.advance c' (some s)) p stage
  turned : ∀ b input o c' id p stage next, I b → A id b p stage →
    Turn b.coordinator input stage o next → (∀ s ∈ o, allowed b.coordinator s) →
      Server.performed b.coordinator o = some c' →
        I (b.advance c' o) ∧ A id (b.advance c' o) p next ∧
          ∀ id' p' stage', id' ≠ id → A id' b p' stage' → A id' (b.advance c' o) p' stage'
  started : ∀ b id p stage call sent, I b → A id b p stage → p.free → made id call →
    p.worker.checks call = .ok () →
      A id b (p.start call sent) (p.startStage stage call sent)
  failed : ∀ b id p stage call error, I b → A id b p stage → p.calling = some call →
    p.ended = false → A id b (p.fail call error) stage
  finished : ∀ b id p call frame, I b → A id b p (.replied frame) → p.calling = some call →
    p.ended = false → A id b (p.finish call frame) .idle ∧ A id b (p.finish call frame) .dropped
  refused : ∀ b id p call error, I b → A id b p .dropped → p.calling = some call →
    p.ended = false → A id b (p.finish call (Coordinator.errorFrame error)) .dropped
  closed : ∀ b id p stage, I b → A id b p stage → p.free →
    A id b { p with worker := p.worker.close } stage

/-- The ways a section comes about: an operator performs it, or a process takes a turn. -/
inductive Arises (A : ℕ → Board → Process → Stage → Prop) (b : Board) (o : Option Section) : Prop
  | operated (operates : ∀ s ∈ o, s.operates = true)
  | turned (id : ℕ) (p : Process) (stage next : Stage) (input : Input) (process : A id b p stage)
      (turn : Turn b.coordinator input stage o next)

/-- A further invariant of the board alone. -/
theorem Rules.board {I J : Board → Prop} {A : ℕ → Board → Process → Stage → Prop}
    {allowed : Coordinator → Section → Prop} {made : ℕ → Call → Prop} (r : Rules I A allowed made)
    (hstep : ∀ b o c', I b → J b → (∀ s ∈ o, allowed b.coordinator s) →
      Server.performed b.coordinator o = some c' → Arises A b o → J (b.advance c' o)) :
    Rules (fun b => I b ∧ J b) A allowed made where
  quiet := r.quiet
  request := r.request
  operated := by
    intro b s c' hb ho hs hp
    obtain ⟨hboard, hprocesses⟩ := r.operated b s c' hb.1 ho hs hp
    have hall : ∀ t ∈ some s, allowed b.coordinator t := fun t ht => Option.some.inj ht ▸ hs
    refine ⟨⟨hboard, hstep b (some s) c' hb.1 hb.2 hall hp (.operated fun t ht => ?_)⟩, hprocesses⟩
    rw [← Option.some.inj ht]
    exact ho
  turned := by
    intro b input o c' id p stage next hb ha hturn hs hp
    obtain ⟨hboard, hprocesses⟩ := r.turned b input o c' id p stage next hb.1 ha hturn hs hp
    exact ⟨⟨hboard, hstep b o c' hb.1 hb.2 hs hp (.turned id p stage next input ha hturn)⟩,
      hprocesses⟩
  started := fun b id p stage call sent hb => r.started b id p stage call sent hb.1
  failed := fun b id p stage call error hb => r.failed b id p stage call error hb.1
  finished := fun b id p call frame hb => r.finished b id p call frame hb.1
  refused := fun b id p call error hb => r.refused b id p call error hb.1
  closed := fun b id p stage hb => r.closed b id p stage hb.1

/-- A rule for fewer calls. -/
theorem Rules.made {I : Board → Prop} {A : ℕ → Board → Process → Stage → Prop}
    {allowed : Coordinator → Section → Prop} {made made' : ℕ → Call → Prop}
    (r : Rules I A allowed made) (h : ∀ id call, made' id call → made id call) :
    Rules I A allowed made' where
  quiet := r.quiet
  request := r.request
  operated := r.operated
  turned := r.turned
  started := fun b id p stage call sent hb ha hfree hmade =>
    r.started b id p stage call sent hb ha hfree (h id call hmade)
  failed := r.failed
  finished := r.finished
  refused := r.refused
  closed := r.closed

/-- The obligations of an invariant `B` of the processes that comes on top of a rule. -/
structure Rules.Adds (I : Board → Prop) (A B : ℕ → Board → Process → Stage → Prop)
    (allowed : Coordinator → Section → Prop) (made : ℕ → Call → Prop) : Prop where
  operated : ∀ b s c' id p stage, I b → s.operates = true → allowed b.coordinator s →
    b.coordinator.perform s = some c' → A id b p stage → B id b p stage →
      B id (b.advance c' (some s)) p stage
  turned : ∀ b input o c' id p stage next, I b → A id b p stage → B id b p stage →
    Turn b.coordinator input stage o next → (∀ s ∈ o, allowed b.coordinator s) →
      Server.performed b.coordinator o = some c' → B id (b.advance c' o) p next
  other : ∀ b input o c' id p stage next id' p' stage', I b → A id b p stage →
    Turn b.coordinator input stage o next → (∀ s ∈ o, allowed b.coordinator s) →
      Server.performed b.coordinator o = some c' → id' ≠ id → A id' b p' stage' →
        B id' b p' stage' → B id' (b.advance c' o) p' stage'
  started : ∀ b id p stage call sent, I b → A id b p stage → B id b p stage → p.free →
    made id call → p.worker.checks call = .ok () →
      B id b (p.start call sent) (p.startStage stage call sent)
  failed : ∀ b id p stage call error, I b → A id b p stage → B id b p stage →
    p.calling = some call → p.ended = false → B id b (p.fail call error) stage
  finished : ∀ b id p call frame, I b → A id b p (.replied frame) → B id b p (.replied frame) →
    p.calling = some call → p.ended = false →
      B id b (p.finish call frame) .idle ∧ B id b (p.finish call frame) .dropped
  refused : ∀ b id p call error, I b → A id b p .dropped → B id b p .dropped →
    p.calling = some call → p.ended = false →
      B id b (p.finish call (Coordinator.errorFrame error)) .dropped
  closed : ∀ b id p stage, I b → A id b p stage → B id b p stage → p.free →
    B id b { p with worker := p.worker.close } stage

theorem Rules.add {I : Board → Prop} {A B : ℕ → Board → Process → Stage → Prop}
    {allowed : Coordinator → Section → Prop} {made : ℕ → Call → Prop} (r : Rules I A allowed made)
    (a : Rules.Adds I A B allowed made) :
    Rules I (fun id b p stage => A id b p stage ∧ B id b p stage) allowed made where
  quiet := fun id b p stage h => r.quiet id b p stage h.1
  request := fun id b p frame h => r.request id b p frame h.1
  operated := by
    intro b s c' hb ho hs hp
    obtain ⟨hboard, hprocesses⟩ := r.operated b s c' hb ho hs hp
    exact ⟨hboard, fun id p stage h =>
      ⟨hprocesses id p stage h.1, a.operated b s c' id p stage hb ho hs hp h.1 h.2⟩⟩
  turned := by
    intro b input o c' id p stage next hb h hturn hs hp
    obtain ⟨hboard, hown, hothers⟩ := r.turned b input o c' id p stage next hb h.1 hturn hs hp
    exact ⟨hboard, ⟨hown, a.turned b input o c' id p stage next hb h.1 h.2 hturn hs hp⟩,
      fun id' p' stage' hne h' => ⟨hothers id' p' stage' hne h'.1,
        a.other b input o c' id p stage next id' p' stage' hb h.1 hturn hs hp hne h'.1 h'.2⟩⟩
  started := fun b id p stage call sent hb h hfree hmade hchecks =>
    ⟨r.started b id p stage call sent hb h.1 hfree hmade hchecks,
      a.started b id p stage call sent hb h.1 h.2 hfree hmade hchecks⟩
  failed := fun b id p stage call error hb h hcalling hrunning =>
    ⟨r.failed b id p stage call error hb h.1 hcalling hrunning,
      a.failed b id p stage call error hb h.1 h.2 hcalling hrunning⟩
  finished := by
    intro b id p call frame hb h hcalling hrunning
    obtain ⟨hidle, hdropped⟩ := r.finished b id p call frame hb h.1 hcalling hrunning
    obtain ⟨hidle', hdropped'⟩ := a.finished b id p call frame hb h.1 h.2 hcalling hrunning
    exact ⟨⟨hidle, hidle'⟩, ⟨hdropped, hdropped'⟩⟩
  refused := fun b id p call error hb h hcalling hrunning =>
    ⟨r.refused b id p call error hb h.1 hcalling hrunning,
      a.refused b id p call error hb h.1 h.2 hcalling hrunning⟩
  closed := fun b id p stage hb h hfree =>
    ⟨r.closed b id p stage hb h.1 hfree, a.closed b id p stage hb h.1 h.2 hfree⟩

namespace Deployment

variable {d d' : Deployment} {I : Board → Prop} {A : ℕ → Board → Process → Stage → Prop}
  {allowed : Coordinator → Section → Prop} {made : ℕ → Call → Prop}

/-- The invariant, with a stage for the exchange of every process. -/
structure Holds (I : Board → Prop) (A : ℕ → Board → Process → Stage → Prop) (d : Deployment) :
    Prop where
  board : I d.board
  processes : ∀ id, ∃ stage : Stage, stage.wires (d.links id) (d.server.threads id) ∧
    A id d.board (d.processes id) stage

theorem board_logged (d : Deployment) (server : Server) (links : ℕ → Link) (o : Option Section) :
    (d.logged { d with server, links } o).board = d.board.advance server.coordinator o := by
  cases o <;> rfl

@[simp] theorem logged_links (d d' : Deployment) (o : Option Section) :
    (d.logged d' o).links = d'.links := by cases o <;> rfl

@[simp] theorem logged_server (d d' : Deployment) (o : Option Section) :
    (d.logged d' o).server = d'.server := by cases o <;> rfl

@[simp] theorem logged_processes (d d' : Deployment) (o : Option Section) :
    (d.logged d' o).processes = d'.processes := by cases o <;> rfl

/-- Threads and operators leave the processes to themselves. -/
theorem perform_processes {event : DeploymentEvent} (hs : d.perform event = some d')
    (hevent : (∃ id input, event = .session id input) ∨ ∃ s, event = .operate s) :
    d'.processes = d.processes := by
  unfold Deployment.perform at hs
  obtain ⟨next, hnext, rfl⟩ := Option.map_eq_some_iff.mp hs
  rw [logged_processes]
  rcases hevent with ⟨id, input, rfl⟩ | ⟨s, rfl⟩
  · simp only [Deployment.session] at hnext
    split at hnext
    · obtain rfl := Option.some.inj hnext
      rfl
    · obtain ⟨server, -, rfl⟩ := Option.map_eq_some_iff.mp hnext
      rfl
  · simp only [Deployment.operate] at hnext
    split_ifs at hnext
    · obtain ⟨c, -, rfl⟩ := Option.map_eq_some_iff.mp hnext
      rfl
    · obtain rfl := Option.some.inj hnext
      rfl

/-- A process changes, and the others stay where they are. -/
theorem Holds.update (h : Holds I A d) (id : ℕ) {server : Server}
    (hc : server.coordinator = d.server.coordinator)
    (ht : ∀ id', id' ≠ id → server.threads id' = d.server.threads id') {link : Link} {p : Process}
    {stage : Stage} (hw : stage.wires link (server.threads id)) (ha : A id d.board p stage) :
    Holds I A
      { d with
        server
        links := Function.update d.links id link
        processes := Function.update d.processes id p } := by
  have hb : Deployment.board
      { d with
        server
        links := Function.update d.links id link
        processes := Function.update d.processes id p } = d.board := by
    simp only [Deployment.board, Deployment.coordinator, hc]
  refine ⟨by rw [hb]; exact h.board, fun id' => ?_⟩
  rw [hb]
  by_cases heq : id' = id
  · subst heq
    refine ⟨stage, ?_, ?_⟩
    · simpa using hw
    · simpa using ha
  · obtain ⟨stage', hw', ha'⟩ := h.processes id'
    refine ⟨stage', ?_, ?_⟩
    · simpa [Function.update_of_ne heq, ht id' heq] using hw'
    · simpa [Function.update_of_ne heq] using ha'

/-- A call starts, or is refused by its checks. -/
theorem Holds.call (r : Rules I A allowed made) (h : Holds I A d) (id : ℕ) (call : Call)
    (sent : Bool) (hmade : made id call) : Holds I A (d.call id call sent) := by
  unfold Deployment.call
  by_cases hbusy : (d.processes id).ended ∨ (d.processes id).calling.isSome
  · simpa only [if_pos hbusy] using h
  have hfree : (d.processes id).free := by
    push Not at hbusy
    exact ⟨Option.not_isSome_iff_eq_none.mp hbusy.2, by simpa using hbusy.1⟩
  simp only [if_neg hbusy]
  cases hchecks : (d.processes id).worker.checks call with
  | error error => exact h
  | ok checked =>
    obtain ⟨stage, hw, ha⟩ := h.processes id
    have hnext := r.started d.board id _ stage call sent h.board ha hfree hmade hchecks
    -- a handshake opens a fresh session, any other call uses the one there is
    by_cases hopens : call = .connectAndHandshake
    · subst hopens
      refine @Holds.update d I A h id
        { d.server with threads := Function.update d.server.threads id {} } rfl
        (fun id' hne => Function.update_of_ne hne _ _) _ _ _ ?_ hnext
      simp only [Process.startStage, Function.update_self]
      cases sent with
      | true => exact Or.inl ⟨rfl, Or.inl rfl⟩
      | false => exact ⟨rfl, Or.inl rfl⟩
    · have hkept : Holds I A
          { d with
            links := Function.update d.links id
              { d.links id with
                request := if sent then
                  some (((d.processes id).worker.sending call).frame call) else none }
            processes := Function.update d.processes id ((d.processes id).start call sent) } := by
        refine @Holds.update d I A h id d.server rfl (fun id' hne => rfl) _ _ _ ?_ hnext
        rcases r.quiet id _ _ stage ha hfree.1 with rfl | rfl
        · have hidle : (d.processes id).startStage .idle call sent = if sent then
              .requested (((d.processes id).worker.sending call).frame call) else .idle := by
            cases call <;> rfl
          obtain ⟨hlink, hwaits⟩ := hw
          rw [hidle, hlink]
          cases sent with
          | true => exact Or.inl ⟨rfl, hwaits⟩
          | false => exact ⟨rfl, hwaits⟩
        · have hdead : (d.processes id).startStage .dropped call sent = .dropped := by
            cases call <;> first | exact absurd rfl hopens | rfl
          rw [hdead]
          exact hw
      cases call <;> first | exact absurd rfl hopens | exact hkept

/-- The reply at the head of a connection leaves an exchange that is over. -/
theorem Holds.finish (r : Rules I A allowed made) (h : Holds I A d) {id : ℕ} {call : Call}
    (hcalling : (d.processes id).calling = some call) (hrunning : (d.processes id).ended = false)
    {frame : Frame} {replies : List Frame} (hreplies : (d.links id).replies = frame :: replies) :
    Holds I A
      { d with
        links := Function.update d.links id { d.links id with replies }
        processes := Function.update d.processes id ((d.processes id).finish call frame) } := by
  obtain ⟨stage, hw, ha⟩ := h.processes id
  have hnil : ∀ link : Link, d.links id = link → link.replies = [] → False := by
    rintro link heq hempty
    rw [heq, hempty] at hreplies
    cases hreplies
  cases stage with
  | idle => exact (hnil _ hw.1 rfl).elim
  | requested requested =>
    rcases hw with ⟨hlink, -⟩ | ⟨hlink, -⟩ <;> exact (hnil _ hlink rfl).elim
  | denying error => exact (hnil _ hw.1 rfl).elim
  | composed composed => exact (hnil _ hw.1 rfl).elim
  | replied reply =>
    rcases hw with ⟨hlink, hwaits⟩ | ⟨hended, hrequest, hcomposed, errors, hlink⟩
    · rw [hlink] at hreplies
      obtain ⟨rfl, rfl⟩ := List.cons.inj hreplies
      have hnext := (r.finished d.board id _ call reply h.board ha hcalling hrunning).1
      refine @Holds.update d I A h id d.server rfl (fun id' hne => rfl) _ _ .idle ?_ hnext
      exact ⟨by rw [hlink], hwaits⟩
    · rw [hlink] at hreplies
      obtain ⟨rfl, rfl⟩ := List.cons.inj hreplies
      have hnext := (r.finished d.board id _ call reply h.board ha hcalling hrunning).2
      exact @Holds.update d I A h id d.server rfl (fun id' hne => rfl) _ _ .dropped
        ⟨hended, errors, rfl⟩ hnext
  | dropped =>
    obtain ⟨hended, errors, hlink⟩ := hw
    rw [hlink] at hreplies
    cases errors with
    | nil => cases hreplies
    | cons error errors =>
      obtain ⟨rfl, rfl⟩ := List.cons.inj hreplies
      have hnext := r.refused d.board id _ call error h.board ha hcalling hrunning
      exact @Holds.update d I A h id d.server rfl (fun id' hne => rfl) _ _ .dropped
        ⟨hended, errors, rfl⟩ hnext

/-- A call is settled, or goes on. -/
theorem Holds.settle (r : Rules I A allowed made) (h : Holds I A d) (id : ℕ)
    (lost : Option Error) : Holds I A (d.settle id lost) := by
  unfold Deployment.settle
  simp only
  cases hcalling : (d.processes id).calling with
  | none => simpa only using h
  | some call =>
    by_cases hended : (d.processes id).ended = true
    · simpa only [hended, if_true] using h
    have hrunning : (d.processes id).ended = false := by simpa using hended
    simp only [if_neg hended]
    cases lost with
    | some error =>
      obtain ⟨stage, hw, ha⟩ := h.processes id
      have hfailed := r.failed d.board id _ stage call error h.board ha hcalling hrunning
      have hnext := @Holds.update d I A h id d.server rfl (fun id' hne => rfl) _ _ _ hw hfailed
      rw [Function.update_eq_self] at hnext
      exact hnext
    | none =>
      cases hreplies : (d.links id).replies with
      | nil => exact h
      | cons frame replies => exact h.finish r hcalling hrunning hreplies

theorem Holds.close (r : Rules I A allowed made) (h : Holds I A d) (id : ℕ) :
    Holds I A (d.close id) := by
  unfold Deployment.close
  by_cases hbusy : (d.processes id).ended ∨ (d.processes id).calling.isSome
  · simpa only [if_pos hbusy] using h
  have hfree : (d.processes id).free := by
    push Not at hbusy
    exact ⟨Option.not_isSome_iff_eq_none.mp hbusy.2, by simpa using hbusy.1⟩
  simp only [if_neg hbusy]
  obtain ⟨stage, hw, ha⟩ := h.processes id
  have hclosed := r.closed d.board id _ stage h.board ha hfree
  have hnext := @Holds.update d I A h id d.server rfl (fun id' hne => rfl) _ _ _ hw hclosed
  rw [Function.update_eq_self] at hnext
  exact hnext

/-- A section that an operator performs. -/
theorem Holds.operate (r : Rules I A allowed made) (h : Holds I A d) {s : Section}
    (ho : s.operates = true) (hallowed : allowed d.coordinator s) {c' : Coordinator}
    (hs : d.coordinator.perform s = some c') :
    Holds I A (d.logged { d with server := { d.server with coordinator := c' } } (some s)) := by
  obtain ⟨hboard, hkept⟩ := r.operated d.board s c' h.board ho hallowed hs
  refine ⟨hboard, fun id => ?_⟩
  obtain ⟨stage, hw, ha⟩ := h.processes id
  exact ⟨stage, hw, hkept id _ stage ha⟩

/-- A step of a session's thread is a turn of its exchange. -/
theorem Holds.exchange (r : Rules I A allowed made) (h : Holds I A d) {id : ℕ} {given input : Input}
    (ha : (d.links id).arriving (d.server.threads id) given = some input) {c' : Coordinator}
    (hp : Server.performed d.coordinator ((d.server.threads id).advance d.coordinator input).1 =
      some c') :
    ∃ stage next, A id d.board (d.processes id) stage ∧
      next.wires ((d.links id).after (d.server.threads id) d.coordinator input)
        ((d.server.threads id).advance d.coordinator input).2 ∧
      Turn d.coordinator input stage ((d.server.threads id).advance d.coordinator input).1 next := by
  obtain ⟨stage, hw, hstage⟩ := h.processes id
  have hcalls : ∀ frame, stage = .requested frame → ∃ s, frame.section input = some s ∧ s.calls := by
    rintro frame rfl
    obtain ⟨call, rfl⟩ := r.request id _ _ frame hstage
    exact ⟨_, (d.processes id).worker.section_frame call input,
      (d.processes id).worker.calls_dispatched call input⟩
  obtain ⟨next, hnext, hturn⟩ := turns hw hcalls ha hp
  exact ⟨stage, next, hstage, hnext, hturn⟩

/-- A section that no operator performs belongs to the exchange of a process. -/
theorem Holds.turn (r : Rules I A allowed made) (h : Holds I A d) {event : DeploymentEvent}
    {s : Section} {c' : Coordinator} (hs : d.performs event = some s) (ho : s.operates = false)
    (hp : d.coordinator.perform s = some c') :
    ∃ id input stage next, A id d.board (d.processes id) stage ∧
      Turn d.coordinator input stage (some s) next := by
  cases event with
  | session id given =>
    obtain ⟨input, ha, hadvance⟩ := Option.bind_eq_some_iff.mp hs
    have hperformed : Server.performed d.coordinator
        ((d.server.threads id).advance d.coordinator input).1 = some c' := by
      rw [hadvance]
      exact hp
    obtain ⟨stage, next, hstage, -, hturn⟩ := h.exchange r ha hperformed
    rw [hadvance] at hturn
    exact ⟨id, input, stage, next, hstage, hturn⟩
  | operate x =>
    simp only [performs] at hs
    split_ifs at hs with hx
    obtain rfl := Option.some.inj hs
    rw [ho] at hx
    cases hx
  | _ => cases hs

/-- A step of a session's thread. -/
theorem Holds.session (r : Rules I A allowed made) (h : Holds I A d) {id : ℕ} {given input : Input}
    (ha : (d.links id).arriving (d.server.threads id) given = some input)
    (hallowed : ∀ s ∈ ((d.server.threads id).advance d.coordinator input).1, allowed d.coordinator s)
    {c' : Coordinator}
    (hp : Server.performed d.coordinator ((d.server.threads id).advance d.coordinator input).1 =
      some c') :
    Holds I A
      (d.logged
        { d with
          server :=
            { coordinator := c'
              threads := Function.update d.server.threads id
                ((d.server.threads id).advance d.coordinator input).2 }
          links := Function.update d.links id
            ((d.links id).after (d.server.threads id) d.coordinator input) }
        ((d.server.threads id).advance d.coordinator input).1) := by
  obtain ⟨stage, next, hstage, hnext, hturn⟩ := h.exchange r ha hp
  generalize ((d.server.threads id).advance d.coordinator input).1 = o at *
  obtain ⟨hboard, hown, hothers⟩ :=
    r.turned d.board input o c' id _ stage next h.board hstage hturn hallowed hp
  refine ⟨by rw [board_logged]; exact hboard, fun id' => ?_⟩
  rw [board_logged]
  simp only [logged_links, logged_server, logged_processes]
  by_cases heq : id' = id
  · subst heq
    refine ⟨next, ?_, hown⟩
    simpa using hnext
  · obtain ⟨stage', hw', ha'⟩ := h.processes id'
    refine ⟨stage', ?_, hothers id' _ stage' heq ha'⟩
    simpa [Function.update_of_ne heq] using hw'

/-- The rule: an event that a run may make keeps the invariant. -/
theorem Holds.perform (r : Rules I A allowed made) (h : Holds I A d) {event : DeploymentEvent}
    (hallowed : ∀ s ∈ d.performs event, allowed d.coordinator s)
    (hmade : ∀ id call sent, event = .call id call sent → made id call)
    (hs : d.perform event = some d') : Holds I A d' := by
  unfold Deployment.perform at hs
  obtain ⟨next, hnext, rfl⟩ := Option.map_eq_some_iff.mp hs
  cases event with
  | call id call sent =>
    obtain rfl := Option.some.inj hnext
    exact h.call r id call sent (hmade id call sent rfl)
  | settle id lost =>
    obtain rfl := Option.some.inj hnext
    exact h.settle r id lost
  | close id =>
    obtain rfl := Option.some.inj hnext
    exact h.close r id
  | operate s =>
    simp only [performs, Deployment.operate] at hnext hallowed ⊢
    by_cases ho : s.operates = true
    · simp only [if_pos ho] at hnext hallowed ⊢
      obtain ⟨c', hc', rfl⟩ := Option.map_eq_some_iff.mp hnext
      exact h.operate r ho (hallowed s rfl) hc'
    · simp only [if_neg ho] at hnext ⊢
      obtain rfl := Option.some.inj hnext
      exact h
  | session id given =>
    simp only [performs, Deployment.session] at hnext hallowed ⊢
    cases ha : (d.links id).arriving (d.server.threads id) given with
    | none =>
      simp only [ha] at hnext ⊢
      obtain rfl := Option.some.inj hnext
      exact h
    | some input =>
      simp only [ha, Option.bind_some] at hnext hallowed ⊢
      obtain ⟨server, hserver, rfl⟩ := Option.map_eq_some_iff.mp hnext
      obtain ⟨c', hc', rfl⟩ := Option.map_eq_some_iff.mp hserver
      exact h.session r ha hallowed hc'

end Deployment

end IncastGovernor
