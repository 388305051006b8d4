import IncastGovernor.Worker.Deployment

/-! The exchange of a session. Wherever the frames and the thread of a session stand, a call is
not under way, requested, denied, about to be answered, answered, or dropped; and a step of the
thread takes the exchange from one of these stages to another, together with the section it
performs. -/

namespace IncastGovernor

open Foundation

open Coordinator (Section)

inductive Stage where
  | idle
  | requested (frame : Frame)
  | denying (error : Error)
  | composed (frame : Frame)
  | replied (frame : Frame)
  | dropped

/-- The thread has not received a frame, or none behind the one it answered. -/
def Phase.waits (phase : Phase) : Prop :=
  phase = .connecting ∨ phase = .looping ∨ phase = .receiving

/-- The thread is about to send the reply it composed. -/
def Phase.replies (phase : Phase) : Prop := phase = .countingDenied ∨ ∃ counted, phase = .replying counted

/-- How the frames and the thread of a session stand at a stage. -/
def Stage.wires (link : Link) (thread : Thread) : Stage → Prop
  | .idle => link = {} ∧ thread.phase.waits
  | .requested frame =>
    (link = { request := some frame } ∧ thread.phase.waits) ∨
      (link = {} ∧ thread.phase = .dispatching ∧ thread.frame = frame)
  | .denying error => link = {} ∧ thread.phase = .denying error
  | .composed frame => link = { composed := some frame } ∧ thread.phase.replies
  | .replied frame =>
    (link = { replies := [frame] } ∧ thread.phase.waits) ∨
      (thread.phase = .ended ∧ link.request = none ∧ link.composed = none ∧
        ∃ errors : List Error, link.replies = frame :: errors.map Coordinator.errorFrame)
  | .dropped =>
    thread.phase = .ended ∧ ∃ errors : List Error, link.replies = errors.map Coordinator.errorFrame

/-- What a step of the thread makes of a stage, with the section it performs. -/
inductive Turn (c : Coordinator) (input : Input) : Stage → Option Section → Stage → Prop
  | rested (stage : Stage) (o : Option Section) (operates : ∀ s ∈ o, s.operates = true) :
      Turn c input stage o stage
  | dropped (stage : Stage) (o : Option Section) (operates : ∀ s ∈ o, s.operates = true) :
      Turn c input stage o .dropped
  | served (frame reply : Frame) (s : Section) (dispatched : frame.section input = some s)
      (replies : c.replyFrame s = some reply) :
      Turn c input (.requested frame) (some s) (.composed reply)
  | denied (frame : Frame) (request : MessageLeaseRequest) (error : Error) (refused : Coordinator)
      (dispatched : frame.section input = some (.leaseRequest request input.now input.order input.fault))
      (denies : c.grantLease request input.now input.order input.fault = some (refused, .error error)) :
      Turn c input (.requested frame)
        (some (.leaseRequest request input.now input.order input.fault)) (.denying error)
  | counted (error : Error) :
      Turn c input (.denying error) (some (.denyLease error))
        (.composed (Coordinator.deniedFrame (c.denyLease error).2))
  | sent (frame : Frame) (o : Option Section) (operates : ∀ s ∈ o, s.operates = true) :
      Turn c input (.composed frame) o (.replied frame)

/-- The sections that a worker's calls are dispatched to. -/
def Coordinator.Section.calls : Section → Prop
  | .hello _ | .leaseRequest _ _ _ _ | .leaseRenew _ _ | .decisionPublish _ _ | .heartbeat => True
  | _ => False

/-- The clock, the order and the outcome of a write that a request meets are the input's. -/
theorem Frame.section_leaseRequest_input {frame : Frame} {input : Input}
    {request : MessageLeaseRequest} {now : Timestamp} {order : Enumeration LeaseRecord}
    {fault : Option AtomicWriteFault}
    (h : frame.section input = some (.leaseRequest request now order fault)) :
    now = input.now ∧ order = input.order ∧ fault = input.fault := by
  have ht := section_leaseRequest h
  unfold «section» at h
  simp only [ht, Option.map_eq_some_iff] at h
  obtain ⟨decoded, -, hsame⟩ := h
  obtain ⟨-, rfl, rfl, rfl⟩ := Section.leaseRequest.inj hsame
  exact ⟨rfl, rfl, rfl⟩

namespace Thread

variable {c c' : Coordinator} {link : Link} {thread : Thread} {given input : Input}

/-! ### The steps of a thread -/

/-- A thread that waits and does not receive yet goes on to wait, or ends. -/
theorem advance_waits (h : thread.phase.waits) (hr : thread.phase ≠ .receiving) :
    (∀ s ∈ (thread.advance c input).1, s.operates = true) ∧ link.after thread c input = link ∧
      ((thread.advance c input).2.phase.waits ∨ (thread.advance c input).2.phase = .ended) := by
  rcases h with hp | hp | hp
  · simp [advance, Link.after, composes, hp, Phase.waits, Section.operates]
  · by_cases hs : c.stopping = true <;>
      simp [advance, Link.after, composes, hp, hs, Phase.waits]
  · exact absurd hp hr

/-- A reception that fails ends the thread; an error frame may go out. -/
theorem advance_failed (hp : thread.phase = .receiving) {error : Error}
    (he : input.received = .error error) :
    (∀ s ∈ (thread.advance c input).1, s.operates = true) ∧
      (thread.advance c input).2.phase = .ended ∧
      ∃ errors : List Error, link.after thread c input =
        { link with replies := link.replies ++ errors.map Coordinator.errorFrame } := by
  by_cases hclosed : error.code = .closed ∨ error.code = .truncatedInput
  · refine ⟨?_, ?_, [], ?_⟩ <;> simp [advance, Link.after, hp, he, hclosed]
  · refine ⟨?_, ?_, [error], ?_⟩ <;> simp [advance, Link.after, hp, he, hclosed, Section.operates]

/-- A request that is received is dispatched next. -/
theorem advance_received (hp : thread.phase = .receiving) {frame : Frame}
    (hr : input.received = .ok frame) :
    thread.advance c input = (some .frameIn, { phase := .dispatching, frame }) ∧
      link.after thread c input = { link with request := none } := by
  simp [advance, Link.after, hp, hr]

/-- What is received is the request on its way. -/
theorem received_of_arriving (hp : thread.phase = .receiving)
    (ha : link.arriving thread given = some input) :
    (∃ error, input.received = .error error) ∨
      ∃ frame, link.request = some frame ∧ input.received = .ok frame := by
  unfold Link.arriving at ha
  rw [hp] at ha
  cases hr : given.received with
  | error error =>
    rw [hr] at ha
    obtain rfl := Option.some.inj ha
    exact Or.inl ⟨error, hr⟩
  | ok ignored =>
    rw [hr] at ha
    obtain ⟨frame, hrequest, rfl⟩ := Option.map_eq_some_iff.mp ha
    exact Or.inr ⟨frame, hrequest, rfl⟩

end Thread

/-! ### Turns -/

/-- The stage of a session and of its next step, with the turn between them. -/
def Turns (c : Coordinator) (link : Link) (thread : Thread) (input : Input) (stage : Stage) : Prop :=
  ∃ next : Stage, next.wires (link.after thread c input) (thread.advance c input).2 ∧
    Turn c input stage (thread.advance c input).1 next

section Turns

variable {c c' : Coordinator} {link : Link} {thread : Thread} {given input : Input}

theorem turns_idle (h : Stage.idle.wires link thread) (ha : link.arriving thread given = some input) :
    Turns c link thread input .idle := by
  obtain ⟨rfl, hw⟩ := h
  by_cases hr : thread.phase = .receiving
  · rcases Thread.received_of_arriving hr ha with ⟨error, he⟩ | ⟨frame, hrequest, -⟩
    · obtain ⟨ho, hended, errors, hlink⟩ := @Thread.advance_failed c {} thread input hr error he
      exact ⟨.dropped, ⟨hended, errors, by rw [hlink]; rfl⟩, .dropped _ _ ho⟩
    · cases hrequest
  · obtain ⟨ho, hlink, hnext⟩ := @Thread.advance_waits c {} thread input hw hr
    rcases hnext with hnext | hnext
    · exact ⟨.idle, ⟨hlink, hnext⟩, .rested _ _ ho⟩
    · exact ⟨.dropped, ⟨hnext, [], by rw [hlink]; rfl⟩, .dropped _ _ ho⟩

theorem turns_dropped (h : Stage.dropped.wires link thread) : Turns c link thread input .dropped := by
  obtain ⟨hended, errors, hreplies⟩ := h
  refine ⟨.dropped, ?_, ?_⟩
  · have hlink : link.after thread c input = link := by
      simp [Link.after, Thread.composes, hended]
    have hthread : (thread.advance c input).2 = thread := by simp [Thread.advance, hended]
    rw [hlink, hthread]
    exact ⟨hended, errors, hreplies⟩
  · refine .rested _ _ ?_
    simp [Thread.advance, hended]

theorem turns_replied {frame : Frame} (h : (Stage.replied frame).wires link thread)
    (ha : link.arriving thread given = some input) : Turns c link thread input (.replied frame) := by
  rcases h with ⟨rfl, hw⟩ | ⟨hended, hrequest, hcomposed, errors, hreplies⟩
  · by_cases hr : thread.phase = .receiving
    · rcases Thread.received_of_arriving hr ha with ⟨error, he⟩ | ⟨frame, hrequest, -⟩
      · obtain ⟨ho, hended, errors, hlink⟩ :=
          @Thread.advance_failed c { replies := [frame] } thread input hr error he
        refine ⟨.replied frame, Or.inr ⟨hended, ?_⟩, .rested _ _ ho⟩
        rw [hlink]
        exact ⟨rfl, rfl, errors, rfl⟩
      · cases hrequest
    · obtain ⟨ho, hlink, hnext⟩ := @Thread.advance_waits c { replies := [frame] } thread input hw hr
      refine ⟨.replied frame, ?_, .rested _ _ ho⟩
      rcases hnext with hnext | hnext
      · exact Or.inl ⟨hlink, hnext⟩
      · exact Or.inr ⟨hnext, by rw [hlink]; exact ⟨rfl, rfl, [], rfl⟩⟩
  · refine ⟨.replied frame, Or.inr ?_, .rested _ _ (by simp [Thread.advance, hended])⟩
    have hlink : link.after thread c input = link := by
      simp [Link.after, Thread.composes, hended]
    have hthread : (thread.advance c input).2 = thread := by simp [Thread.advance, hended]
    rw [hlink, hthread]
    exact ⟨hended, hrequest, hcomposed, errors, hreplies⟩

theorem turns_composed {frame : Frame} (h : (Stage.composed frame).wires link thread) :
    Turns c link thread input (.composed frame) := by
  obtain ⟨rfl, hcounting | ⟨counted, hreplying⟩⟩ := h
  · refine ⟨.composed frame, ⟨?_, Or.inr ⟨false, ?_⟩⟩, .rested _ _ ?_⟩ <;>
      simp [Thread.advance, Link.after, Thread.composes, hcounting, Section.operates]
  · by_cases hsent : input.sent = true
    · refine ⟨.replied frame, Or.inl ⟨?_, Or.inr (Or.inl ?_)⟩, .sent _ _ ?_⟩
      · simp [Link.after, hreplying, hsent]
      · simp [Thread.advance, hreplying, hsent]
      · cases counted <;> simp [Thread.advance, hreplying, hsent, Section.operates]
    · refine ⟨.dropped, ⟨?_, [], ?_⟩, .dropped _ _ ?_⟩
      · simp [Thread.advance, hreplying, hsent]
      · simp [Link.after, hreplying, hsent]
      · simp [Thread.advance, hreplying, hsent]

theorem turns_denying {error : Error} (h : (Stage.denying error).wires link thread) :
    Turns c link thread input (.denying error) := by
  obtain ⟨rfl, hd⟩ := h
  have hcounted := @Turn.counted c input error
  refine ⟨.composed (Coordinator.deniedFrame (c.denyLease error).2),
    ⟨?_, Or.inr ⟨true, ?_⟩⟩, ?_⟩
  · simp [Link.after, Thread.composes, hd, Coordinator.replyFrame]
  · simp [Thread.advance, hd]
  · simpa [Thread.advance, hd] using hcounted

/-- A request that is still on its way waits to be received, or is lost. -/
theorem turns_underway {frame : Frame} (hlink : link = { request := some frame })
    (hw : thread.phase.waits) (ha : link.arriving thread given = some input) :
    Turns c link thread input (.requested frame) := by
  subst hlink
  by_cases hr : thread.phase = .receiving
  · rcases Thread.received_of_arriving hr ha with ⟨error, he⟩ | ⟨received, hrequest, hreceived⟩
    · obtain ⟨ho, hended, errors, hlink⟩ :=
        @Thread.advance_failed c { request := some frame } thread input hr error he
      exact ⟨.dropped, ⟨hended, errors, by rw [hlink]; rfl⟩, .dropped _ _ ho⟩
    · obtain rfl := Option.some.inj hrequest
      obtain ⟨hadvance, hafter⟩ :=
        @Thread.advance_received c { request := some frame } thread input hr frame hreceived
      refine ⟨.requested frame, Or.inr ⟨hafter, ?_, ?_⟩, .rested _ _ ?_⟩ <;> rw [hadvance]
      intro s hs
      obtain rfl := Option.some.inj hs
      rfl
  · obtain ⟨ho, hlink, hnext⟩ :=
      @Thread.advance_waits c { request := some frame } thread input hw hr
    rcases hnext with hnext | hnext
    · exact ⟨.requested frame, Or.inl ⟨hlink, hnext⟩, .rested _ _ ho⟩
    · exact ⟨.dropped, ⟨hnext, [], by rw [hlink]; rfl⟩, .dropped _ _ ho⟩

/-- A request is dispatched to a section of a call, and answered or denied. -/
theorem turns_dispatched {frame : Frame} (hlink : link = {}) (hd : thread.phase = .dispatching)
    (hframe : thread.frame = frame) {s : Section} (hs : frame.section input = some s)
    (hcalls : s.calls) (hp : c.perform s = some c') :
    Turns c link thread input (.requested frame) := by
  subst hlink hframe
  have hsection : (thread.advance c input).1 = some s := Thread.advance_of_dispatching hd hs
  have hphase : (thread.advance c input).2.phase = c.phaseAfter s := by
    simp [Thread.advance, hd, hs]
  have hlink : Link.after {} thread c input = { composed := c.replyFrame s } := by
    simp [Link.after, Thread.composes, hd, hs]
  unfold Turns
  rw [hsection, hlink]
  have hserved : ∀ reply, c.replyFrame s = some reply → c.phaseAfter s = .countingDenied ∨
      (∃ counted, c.phaseAfter s = .replying counted) →
        ∃ next : Stage, next.wires { composed := c.replyFrame s } (thread.advance c input).2 ∧
          Turn c input (.requested thread.frame) (some s) next := by
    intro reply hreply hreplies
    refine ⟨.composed reply, ⟨by rw [hreply], ?_⟩, .served _ _ _ hs hreply⟩
    unfold Phase.replies
    rw [hphase]
    exact hreplies
  cases s with
  | hello hello => exact hserved _ rfl (Or.inr ⟨true, rfl⟩)
  | decisionPublish publish now => exact hserved _ rfl (Or.inr ⟨true, rfl⟩)
  | heartbeat => exact hserved _ rfl (Or.inr ⟨false, rfl⟩)
  | leaseRenew renew now =>
    cases hr : (c.renewLease renew now).2 with
    | ok grant =>
      refine hserved (Coordinator.grantFrame grant) ?_ (Or.inr ⟨false, ?_⟩)
      · simp [Coordinator.replyFrame, hr]
      · simp [Coordinator.phaseAfter, hr]
    | error denied =>
      refine hserved (Coordinator.deniedFrame denied) ?_ (Or.inl ?_)
      · simp [Coordinator.replyFrame, hr]
      · simp [Coordinator.phaseAfter, hr]
  | leaseRequest request now order fault =>
    obtain ⟨rfl, rfl, rfl⟩ := Frame.section_leaseRequest_input hs
    obtain ⟨⟨next, outcome⟩, hg, rfl⟩ := Option.map_eq_some_iff.mp hp
    cases outcome with
    | ok grant =>
      refine hserved (Coordinator.grantFrame grant) ?_ (Or.inr ⟨true, ?_⟩)
      · simp [Coordinator.replyFrame, Coordinator.granted, hg, Except.toOption]
      · simp [Coordinator.phaseAfter, hg]
    | error error =>
      refine ⟨.denying error, ⟨?_, ?_⟩, .denied _ _ _ _ hs hg⟩
      · simp [Coordinator.replyFrame, Coordinator.granted, hg, Except.toOption]
      · rw [hphase]
        simp [Coordinator.phaseAfter, hg]
  | _ => exact hcalls.elim

/-- Every step of a thread is a turn of its exchange, where requests are dispatched to the
sections of calls. -/
theorem turns {stage : Stage} (h : stage.wires link thread)
    (hcalls : ∀ frame, stage = .requested frame → ∃ s, frame.section input = some s ∧ s.calls)
    (ha : link.arriving thread given = some input)
    (hp : Server.performed c (thread.advance c input).1 = some c') :
    Turns c link thread input stage := by
  cases stage with
  | idle => exact turns_idle h ha
  | requested frame =>
    rcases h with ⟨hlink, hw⟩ | ⟨hlink, hd, hframe⟩
    · exact turns_underway hlink hw ha
    · obtain ⟨s, hs, hs'⟩ := hcalls frame rfl
      rw [Thread.advance_of_dispatching hd (hframe ▸ hs)] at hp
      exact turns_dispatched hlink hd hframe hs hs' hp
  | denying error => exact turns_denying h
  | composed frame => exact turns_composed h
  | replied frame => exact turns_replied h ha
  | dropped => exact turns_dropped h

end Turns

end IncastGovernor
