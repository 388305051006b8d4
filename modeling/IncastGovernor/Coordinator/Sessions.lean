import IncastGovernor.Coordinator.Interference
import IncastGovernor.Coordinator.MessageCodec
import IncastGovernor.Coordinator.Revocation
import IncastGovernor.Transport.Frame

/-! Sessions. Each session runs `handle_connection` in a thread of its own: a frame is received,
dispatched to its section and answered, and between any two of these steps the threads of other
sessions may run. A run is a list of steps, each of some session's thread or of the program that
hosts the coordinator. -/

namespace IncastGovernor

open Foundation

open Coordinator (Section)

/-- Where a session's thread stands. -/
inductive Phase where
  | connecting
  | looping
  | receiving
  | dispatching
  | denying (error : Error)
  | countingDenied
  | replying (counted : Bool)
  | answering (request : ControlRequest) (response : ControlResponse)
  | answered (request : ControlRequest) (response : ControlResponse)
  | ended

/-- A thread with the frame it received last. -/
structure Thread where
  phase : Phase := .connecting
  frame : Frame := {}

/-- What a step leaves open: the frame or error the channel delivers, the clock, the iteration
order of the lease table, the outcome of a ledger write, and whether a reply gets through. -/
structure Input where
  received : Outcome Frame := fail .closed "connection closed"
  now : Timestamp := {}
  order : Enumeration LeaseRecord := Enumeration.inOrder LeaseRecord
  fault : Option AtomicWriteFault := none
  sent : Bool := true

namespace Frame

/-- The section a frame is dispatched to, when its payload decodes. -/
def «section» (frame : Frame) (input : Input) : Option Section :=
  match frame.type with
  | .hello => (decodeHello frame.payload).toOption.map .hello
  | .leaseRequest =>
    (decodeLeaseRequest frame.payload).toOption.map fun request =>
      .leaseRequest request input.now input.order input.fault
  | .leaseRenew =>
    (decodeLeaseRenew frame.payload).toOption.map fun renew => .leaseRenew renew input.now
  | .decisionPublish =>
    (decodeDecisionPublish frame.payload).toOption.map fun publish =>
      .decisionPublish publish input.now
  | .heartbeat => some .heartbeat
  | .controlRequest =>
    (decodeControlRequest frame.payload).toOption.map fun request => .control request input.fault
  | .shutdown => some .stop
  | _ => none

/-- The types the switch of `handle_connection` names. -/
def served (frame : Frame) : Prop :=
  frame.type ∈ [FrameType.hello, .leaseRequest, .leaseRenew, .decisionPublish, .heartbeat,
    .controlRequest, .shutdown]

instance (frame : Frame) : Decidable frame.served := by
  delta served; infer_instance

end Frame

/-- Where a thread goes on behind the section of its frame. -/
def Coordinator.phaseAfter (c : Coordinator) : Section → Phase
  | .hello _ => .replying true
  | .leaseRequest request now order fault =>
    match c.grantLease request now order fault with
    | some (_, .error error) => .denying error
    | _ => .replying true
  | .leaseRenew renew now =>
    match (c.renewLease renew now).2 with
    | .ok _ => .replying false
    | .error _ => .countingDenied
  | .decisionPublish _ _ => .replying true
  | .heartbeat => .replying false
  | .control request fault => .answering request (c.handleControl request fault).2
  | _ => .ended

/-- The reply to a control request: behind an accepted one that is no status request the epoch is
read again. -/
def Coordinator.controlReply (c : Coordinator) (request : ControlRequest)
    (response : ControlResponse) : ControlResponse :=
  if c.tokenAccepted request ∧ request.opcode ≠ .status then c.answerControl response else response

namespace Thread

/-- One step of `handle_connection`: the section it performs, if any, and where it leads. A
payload that does not decode, and a reply that does not get through, end the session. -/
def advance (thread : Thread) (c : Coordinator) (input : Input) : Option Section × Thread :=
  match thread.phase with
  | .connecting => (some .connected, { thread with phase := .looping })
  | .looping => (none, { thread with phase := if c.stopping then .ended else .receiving })
  | .receiving =>
    match input.received with
    | .error error =>
      (if error.code = .closed ∨ error.code = .truncatedInput then none else some .frameIn,
        { thread with phase := .ended })
    | .ok frame => (some .frameIn, { phase := .dispatching, frame })
  | .dispatching =>
    match thread.frame.section input with
    | some s => (some s, { thread with phase := c.phaseAfter s })
    | none => (none, { thread with phase := if thread.frame.served then .ended else .replying false })
  | .denying error => (some (.denyLease error), { thread with phase := .replying true })
  | .countingDenied => (some .countDenied, { thread with phase := .replying false })
  | .replying counted =>
    if ¬input.sent then (none, { thread with phase := .ended })
    else (if counted then some .frameOut else none, { thread with phase := .looping })
  | .answering request response =>
    (some (.answerControl response),
      { thread with phase := .answered request (c.controlReply request response) })
  | .answered request _ =>
    -- the token is compared again, without the check that one is configured
    (if input.sent ∧ request.opcode = .shutdown ∧ request.token = c.config.controlToken then
        some .stop
      else none,
      { thread with phase := .ended })
  | .ended => (none, thread)

/-- The answer to the control request a thread is handling. -/
def answer (thread : Thread) (c : Coordinator) (input : Input) : Option ControlResponse :=
  match thread.phase with
  | .dispatching =>
    match thread.frame.section input with
    | some (.control request fault) => some (c.handleControl request fault).2
    | _ => none
  | .answering _ response | .answered _ response => some response
  | _ => none

end Thread

/-- A coordinator with the threads of its sessions. -/
structure Server where
  coordinator : Coordinator
  threads : ℕ → Thread := fun _ => {}

/-- A step of a session's thread, or a call of the hosting program. -/
inductive ServerEvent where
  | session (id : ℕ) (input : Input)
  | advanceEpoch (fault : Option AtomicWriteFault)
  | stop

namespace Server

/-- The coordinator behind a step of a thread. -/
def performed (c : Coordinator) : Option Section → Option Coordinator
  | some s => c.perform s
  | none => some c

def serve (server : Server) : ServerEvent → Option Server
  | .session id input =>
    let result := (server.threads id).advance server.coordinator input
    (performed server.coordinator result.1).map fun coordinator =>
      { coordinator, threads := Function.update server.threads id result.2 }
  | .advanceEpoch fault =>
    (server.coordinator.perform (.advanceEpoch fault)).map fun coordinator =>
      { server with coordinator }
  | .stop =>
    (server.coordinator.perform .stop).map fun coordinator => { server with coordinator }

/-- A step of a process that may have died. -/
def step (server : Option Server) (event : ServerEvent) : Option Server :=
  server.bind fun server => server.serve event

/-- The server that `start` brings up, without a session. -/
def bringUp (config : CoordinatorConfig) (environment : Coordinator.StartEnvironment)
    (disk : Option Text) : Option Server :=
  (Coordinator.launch config environment disk).map fun coordinator => { coordinator }

end Server

/-! ### Administration -/

namespace Coordinator

variable {c c' : Coordinator}

/-- A step stops the coordinator, advances its epoch without a request that supersedes a holder,
or revokes all leases, or more than a single one. -/
def administered (c c' : Coordinator) (frame : Frame) : Prop :=
  (c.stopping = false ∧ c'.stopping = true) ∨
    (c'.epoch ≠ c.epoch ∧ frame.type ≠ .leaseRequest) ∨
    c.revokesAll c' ∨ ∃ a b, a.key ≠ b.key ∧ c.revoked c' a ∧ c.revoked c' b

theorem persistEpoch_stopping (c : Coordinator) (fault : Option AtomicWriteFault) :
    (c.persistEpoch fault).1.stopping = c.stopping := by
  unfold persistEpoch
  split_ifs <;> rfl

theorem advanceEpoch_stopping (c : Coordinator) (fault : Option AtomicWriteFault) :
    (c.advanceEpoch fault).1.stopping = c.stopping :=
  persistEpoch_stopping c.bumpEpoch fault

/-- Only `stop` stops. -/
theorem perform_stopping (h : Sound c) {s : Section} (hs : c.perform s = some c')
    (hn : s ≠ .stop) : c'.stopping = c.stopping := by
  cases s with
  | leaseRequest request now order fault =>
    have hby := leaseRequest_by h.exclusive hs
    generalize c.granted (.leaseRequest request now order fault) = sent at hby
    have hadvanced := advanceEpoch_stopping (c.claimed request now order) fault
    cases hby with
    | unpersisted => exact hadvanced
    | superseding => exact hadvanced
    | _ => rfl
  | leaseRenew renew now =>
    obtain rfl := Option.some.inj hs
    rcases renewLease_cases c renew now with ⟨denied, hr⟩ | ⟨record, -, -, -, -, hr⟩ <;> rw [hr]
  | decisionPublish publish now =>
    obtain rfl := Option.some.inj hs
    unfold publishDecision
    simp only
    split
    · rfl
    · split <;> rfl
  | control request fault =>
    obtain rfl := Option.some.inj hs
    have hby := handleControl_by c request fault
    generalize (c.handleControl request fault).1 = next at hby
    cases hby with
    | unchanged other => rfl
    | advanced accepted opcode => exact advanceEpoch_stopping c fault
    | revoked accepted opcode => rfl
  | advanceEpoch fault =>
    obtain rfl := Option.some.inj hs
    exact advanceEpoch_stopping c fault
  | stop => exact absurd rfl hn
  | _ =>
    obtain rfl := Option.some.inj hs
    rfl

/-- What administers: a stop, or an accepted request to advance the epoch or to revoke all
leases. The hosting program advances the epoch in a section of its own. -/
def administers (c : Coordinator) : Section → Prop
  | .stop => True
  | .control request _ =>
    c.tokenAccepted request ∧ (request.opcode = .advanceEpoch ∨ request.opcode = .revokeAll)
  | .advanceEpoch _ => True
  | _ => False

theorem administers_of_administered (h : Steady c) {s : Section} (hs : c.perform s = some c')
    {frame : Frame}
    (hf : ∀ request now order fault, s = .leaseRequest request now order fault →
      frame.type = .leaseRequest)
    (ha : c.administered c' frame) : c.administers s ∨ c.revokesLast s := by
  rcases ha with ⟨hrunning, hstopped⟩ | ⟨hepoch, htype⟩ | hall | ⟨a, b, hne, hra, hrb⟩
  · refine Or.inl ?_
    by_contra hn
    have hs' := perform_stopping h.sound hs fun heq => hn (heq ▸ trivial)
    rw [hs', hrunning] at hstopped
    exact Bool.false_ne_true hstopped
  · refine Or.inl ?_
    rcases perform_epoch h.sound hs with ⟨hadvances, -⟩ | ⟨-, hkept⟩
    · cases s with
      | leaseRequest request now order fault => exact absurd (hf _ _ _ _ rfl) htype
      | control request fault => exact hadvances
      | advanceEpoch fault => trivial
      | _ => exact hadvances.elim
    · exact absurd hkept hepoch
  · by_contra hn
    push Not at hn
    refine hn.2 (revokesLast_of_revokesAll h hs (fun request fault heq haccepted hop => hn.1 ?_) hall)
    rw [heq]
    exact ⟨haccepted, Or.inr hop⟩
  · refine Or.inl ?_
    by_contra hn
    refine hne (revoked_alone h.sound hs (fun request fault heq haccepted hop => hn ?_) hra hrb)
    rw [heq]
    exact ⟨haccepted, Or.inr hop⟩

/-- An accepted request to advance the epoch moves it. -/
theorem control_advances_epoch {request : ControlRequest} {fault : Option AtomicWriteFault}
    (ha : c.tokenAccepted request) (hop : request.opcode = .advanceEpoch) :
    (c.handleControl request fault).1.epoch ≠ c.epoch := by
  unfold handleControl
  rw [if_neg (not_not.mpr ha), hop]
  simp only
  rw [advanceEpoch_epoch]
  exact next_ne c.epoch

/-- It is answered with an error exactly when its record is to be stored and cannot be. -/
theorem control_advance_fails (h : Steady c) {request : ControlRequest}
    {fault : Option AtomicWriteFault} (ha : c.tokenAccepted request)
    (hop : request.opcode = .advanceEpoch) :
    (c.handleControl request fault).2.ok ≠ true ↔ c.ledgerOpen = true ∧ ¬c.storable fault := by
  unfold handleControl
  rw [if_neg (not_not.mpr ha), hop]
  by_cases ho : c.ledgerOpen = true
  · rw [← storeError_eq_none_iff (h.path ho), storeError_eq_none ho]
    cases hstatus : (c.advanceEpoch fault).2 <;> simp [ho, hstatus]
  · have hok : (c.advanceEpoch fault).2 = .ok () := by
      unfold advanceEpoch persistEpoch
      rw [if_neg (show ¬c.bumpEpoch.ledgerOpen = true from ho)]
    simp [ho, hok]

theorem control_revokes_ok {request : ControlRequest} {fault : Option AtomicWriteFault}
    (ha : c.tokenAccepted request) (hop : request.opcode = .revokeAll) :
    (c.handleControl request fault).2.ok = true := by
  unfold handleControl
  rw [if_neg (not_not.mpr ha), hop]

end Coordinator

/-! ### Frames and their sections -/

namespace Frame

variable {frame : Frame} {input : Input}

theorem section_leaseRequest {request : MessageLeaseRequest} {now : Timestamp}
    {order : Enumeration LeaseRecord} {fault : Option AtomicWriteFault}
    (h : frame.section input = some (.leaseRequest request now order fault)) :
    frame.type = .leaseRequest := by
  unfold «section» at h
  cases ht : frame.type <;> simp [ht] at h ⊢

theorem section_control {request : ControlRequest} {fault : Option AtomicWriteFault} :
    frame.section input = some (.control request fault) ↔
      frame.type = .controlRequest ∧ decodeControlRequest frame.payload = .ok request ∧
        input.fault = fault := by
  unfold «section»
  cases ht : frame.type <;> simp
  cases decodeControlRequest frame.payload <;> simp [Except.toOption]

theorem section_stop : frame.section input = some .stop ↔ frame.type = .shutdown := by
  unfold «section»
  cases ht : frame.type <;> simp

theorem section_ne_advanceEpoch (fault : Option AtomicWriteFault) :
    frame.section input ≠ some (.advanceEpoch fault) := by
  unfold «section»
  cases ht : frame.type <;> simp

end Frame

/-! ### Authenticated steps -/

namespace Thread

variable {thread : Thread} {c c' : Coordinator} {input : Input}

/-- The thread handles a control request whose token is the configured one, and answers it with
success. -/
def authenticated (thread : Thread) (c : Coordinator) (input : Input) : Prop :=
  ∃ request response, thread.frame.type = .controlRequest ∧
    decodeControlRequest thread.frame.payload = .ok request ∧ c.tokenAccepted request ∧
    thread.answer c input = some response ∧ response.ok = true

/-- A step that administers the coordinator is authenticated. -/
def authenticates (thread : Thread) (c : Coordinator) (input : Input) : Prop :=
  ∀ c', Server.performed c (thread.advance c input).1 = some c' →
    c.administered c' thread.frame → thread.authenticated c input

/-- A Shutdown frame, an accepted request to advance to an epoch that cannot be stored, a frame
that revokes the only live lease and leaves none, or an answered Shutdown request without a token
where none is configured. -/
def unauthenticated (thread : Thread) (c : Coordinator) (input : Input) : Prop :=
  match thread.phase with
  | .dispatching =>
    (thread.frame.type = .shutdown ∧ c.stopping = false) ∨
      (∃ request, thread.frame.type = .controlRequest ∧
        decodeControlRequest thread.frame.payload = .ok request ∧ c.tokenAccepted request ∧
        request.opcode = .advanceEpoch ∧ c.ledgerOpen = true ∧ ¬c.storable input.fault) ∨
      ∃ s, thread.frame.section input = some s ∧ c.revokesLast s
  | .answered request _ =>
    request.opcode = .shutdown ∧ request.token = [] ∧ c.config.controlToken = [] ∧
      input.sent = true ∧ c.stopping = false
  | _ => False

/-- A thread that answers a control request has received it, and answers a Shutdown request by
its token. -/
def sound (thread : Thread) (c : Coordinator) : Prop :=
  match thread.phase with
  | .answering request response | .answered request response =>
    thread.frame.type = .controlRequest ∧
      decodeControlRequest thread.frame.payload = .ok request ∧
      (request.opcode = .shutdown → (response.ok = true ↔ c.tokenAccepted request))
  | _ => True

theorem not_administered_self (c : Coordinator) (frame : Frame) : ¬c.administered c frame := by
  rintro (⟨hrunning, hstopped⟩ | ⟨hepoch, -⟩ | hall | ⟨a, b, -, hra, -⟩)
  · rw [hrunning] at hstopped
    exact Bool.false_ne_true hstopped
  · exact hepoch rfl
  · exact Coordinator.not_revokesAll_of_leases rfl hall
  · exact Coordinator.not_revoked_of_leases rfl a hra

/-- A stop is an effect on a coordinator that is not stopped yet. -/
theorem administered_stop_iff (c : Coordinator) (frame : Frame) :
    c.administered { c with stopping := true } frame ↔ c.stopping = false := by
  refine ⟨?_, fun hrunning => Or.inl ⟨hrunning, rfl⟩⟩
  rintro (⟨hrunning, -⟩ | ⟨hepoch, -⟩ | hall | ⟨a, b, -, hra, -⟩)
  · exact hrunning
  · exact absurd rfl hepoch
  · exact absurd hall (Coordinator.not_revokesAll_of_leases rfl)
  · exact absurd hra (Coordinator.not_revoked_of_leases rfl a)

/-- A step is authenticated whose section neither administers nor leaves no lease live. -/
theorem authenticates_of_not_administers (h : Coordinator.Steady c)
    (hn : ∀ s, (thread.advance c input).1 = some s → ¬(c.administers s ∨ c.revokesLast s) ∧
      ∀ request now order fault, s = .leaseRequest request now order fault →
        thread.frame.type = .leaseRequest) :
    thread.authenticates c input := by
  intro c' hp ha
  cases hs : (thread.advance c input).1 with
  | none =>
    rw [hs] at hp
    obtain rfl := Option.some.inj hp
    exact absurd ha (not_administered_self c thread.frame)
  | some s =>
    rw [hs] at hp
    obtain ⟨hnot, htype⟩ := hn s hs
    exact absurd (Coordinator.administers_of_administered h hp htype ha) hnot

theorem advance_of_dispatching (hd : thread.phase = .dispatching) {s : Section}
    (hs : thread.frame.section input = some s) : (thread.advance c input).1 = some s := by
  unfold advance
  simp only [hd, hs]

theorem unauthenticated_of_dispatching (hd : thread.phase = .dispatching) {s : Section}
    (hs : thread.frame.section input = some s) :
    thread.unauthenticated c input ↔ (thread.frame.type = .shutdown ∧ c.stopping = false) ∨
      (∃ request, thread.frame.type = .controlRequest ∧
        decodeControlRequest thread.frame.payload = .ok request ∧ c.tokenAccepted request ∧
        request.opcode = .advanceEpoch ∧ c.ledgerOpen = true ∧ ¬c.storable input.fault) ∨
      c.revokesLast s := by
  unfold unauthenticated
  simp [hd, hs]

/-- A dispatched Shutdown frame. -/
theorem dispatch_stop_iff (hd : thread.phase = .dispatching)
    (hs : thread.frame.section input = some .stop) :
    thread.authenticates c input ↔ ¬thread.unauthenticated c input := by
  have htype := Frame.section_stop.mp hs
  have hlast : ¬c.revokesLast .stop := id
  rw [unauthenticated_of_dispatching hd hs]
  unfold authenticates authenticated
  rw [advance_of_dispatching hd hs]
  simp only [htype, hlast, reduceCtorEq, false_and, exists_false, or_false, true_and, imp_false]
  constructor
  · intro h hrunning
    exact h _ rfl ((administered_stop_iff c thread.frame).mpr hrunning)
  · intro h c' hp ha
    obtain rfl := Option.some.inj hp
    exact h ((administered_stop_iff c thread.frame).mp ha)

/-- A dispatched control request. -/
theorem dispatch_control_iff (h : Coordinator.Steady c) (hd : thread.phase = .dispatching)
    {request : ControlRequest}
    (hs : thread.frame.section input = some (.control request input.fault)) :
    thread.authenticates c input ↔ ¬thread.unauthenticated c input := by
  obtain ⟨htype, hdecode, -⟩ := Frame.section_control.mp hs
  have hanswer : thread.answer c input = some (c.handleControl request input.fault).2 := by
    unfold answer
    simp only [hd, hs]
  have hperform : ∀ c', Server.performed c (thread.advance c input).1 = some c' ↔
      (c.handleControl request input.fault).1 = c' := by
    intro c'
    rw [advance_of_dispatching hd hs]
    exact Option.some_inj
  have hun : thread.unauthenticated c input ↔ c.tokenAccepted request ∧
      request.opcode = .advanceEpoch ∧ c.ledgerOpen = true ∧ ¬c.storable input.fault := by
    have hlast : ¬c.revokesLast (.control request input.fault) := id
    rw [unauthenticated_of_dispatching hd hs]
    simp [htype, hdecode, hlast]
  by_cases hadmin : c.administers (.control request input.fault)
  swap
  · refine ⟨fun _ hu => ?_, fun _ => ?_⟩
    · rw [hun] at hu
      exact hadmin ⟨hu.1, Or.inl hu.2.1⟩
    · refine authenticates_of_not_administers h fun s hsome => ?_
      rw [advance_of_dispatching hd hs] at hsome
      obtain rfl := Option.some.inj hsome
      exact ⟨fun hor => hor.elim hadmin id, fun _ _ _ _ heq => by cases heq⟩
  obtain ⟨haccepted, hop | hop⟩ := hadmin
  · have hfails := @Coordinator.control_advance_fails c h request input.fault haccepted hop
    rw [hun]
    simp only [haccepted, hop, true_and, ← hfails, not_not]
    constructor
    · intro hall
      have hepoch := @Coordinator.control_advances_epoch c request input.fault haccepted hop
      have hadministered : c.administered (c.handleControl request input.fault).1 thread.frame :=
        Or.inr (Or.inl ⟨hepoch, by rw [htype]; decide⟩)
      obtain ⟨_, response, -, -, -, hsome, hok⟩ := hall _ ((hperform _).mpr rfl) hadministered
      rw [hanswer] at hsome
      rwa [Option.some.inj hsome]
    · intro hok c' _ _
      exact ⟨request, _, htype, hdecode, haccepted, hanswer, hok⟩
  · have hok := @Coordinator.control_revokes_ok c request input.fault haccepted hop
    rw [hun]
    refine ⟨fun _ hu => ?_, fun _ c' _ _ => ⟨request, _, htype, hdecode, haccepted, hanswer, hok⟩⟩
    rw [hop] at hu
    cases hu.2.1

section Answered

variable {request : ControlRequest} {response : ControlResponse}

/-- The step behind the reply to a control request stops the coordinator if the reply was sent and
the token is the configured one. -/
theorem advance_of_answered (hd : thread.phase = .answered request response) :
    (thread.advance c input).1 =
      if input.sent ∧ request.opcode = .shutdown ∧ request.token = c.config.controlToken then
        some .stop
      else none := by
  unfold advance
  rw [hd]

theorem unauthenticated_of_answered (hd : thread.phase = .answered request response) :
    thread.unauthenticated c input ↔ request.opcode = .shutdown ∧ request.token = [] ∧
      c.config.controlToken = [] ∧ input.sent = true ∧ c.stopping = false := by
  unfold unauthenticated
  rw [hd]

/-- A stop behind a reply whose token the coordinator accepts. -/
theorem authenticates_of_accepted (ht : thread.sound c)
    (hd : thread.phase = .answered request response) (hop : request.opcode = .shutdown)
    (ha : c.tokenAccepted request) : thread.authenticates c input := by
  unfold sound at ht
  rw [hd] at ht
  obtain ⟨htype, hdecode, hok⟩ := ht
  refine fun c' _ _ => ⟨request, response, htype, hdecode, ha, ?_, (hok hop).mpr ha⟩
  unfold answer
  rw [hd]

/-- A stop without a configured token is not authenticated while the coordinator runs. -/
theorem authenticates_without_token (hempty : c.config.controlToken = [])
    (hsection : (thread.advance c input).1 = some .stop) :
    thread.authenticates c input ↔ c.stopping = true := by
  constructor
  · intro hall
    by_contra hrunning
    have hfalse : c.stopping = false := by simpa using hrunning
    have hperformed : Server.performed c (thread.advance c input).1 =
        some { c with stopping := true } := by
      rw [hsection]
      rfl
    obtain ⟨other, -, -, -, haccepted, -⟩ :=
      hall _ hperformed ((administered_stop_iff c thread.frame).mpr hfalse)
    exact haccepted.1 hempty
  · intro hstopping c' hp ha
    rw [hsection] at hp
    obtain rfl := Option.some.inj hp
    have hrunning := (administered_stop_iff c thread.frame).mp ha
    rw [hstopping] at hrunning
    cases hrunning

/-- The step behind the reply to a control request. -/
theorem answered_iff (ht : thread.sound c) (hd : thread.phase = .answered request response) :
    thread.authenticates c input ↔ ¬thread.unauthenticated c input := by
  have hadvance := @advance_of_answered thread c input _ _ hd
  rw [unauthenticated_of_answered hd]
  by_cases hstops : input.sent ∧ request.opcode = .shutdown ∧
      request.token = c.config.controlToken
  swap
  · refine ⟨fun _ hu => hstops ⟨hu.2.2.2.1, hu.1, hu.2.1.trans hu.2.2.1.symm⟩, fun _ c' hp ha => ?_⟩
    rw [hadvance, if_neg hstops] at hp
    obtain rfl := Option.some.inj hp
    exact absurd ha (not_administered_self c thread.frame)
  rw [if_pos hstops] at hadvance
  obtain ⟨hsent, hop, htoken⟩ := hstops
  by_cases hempty : c.config.controlToken = []
  · rw [authenticates_without_token hempty hadvance]
    simp [hop, htoken, hempty, hsent]
  · exact ⟨fun _ hu => hempty hu.2.2.1,
      fun _ => authenticates_of_accepted ht hd hop ⟨hempty, htoken⟩⟩

end Answered

/-- A dispatched frame that is neither a Shutdown nor a control request is authenticated unless it
revokes the only live lease. -/
theorem dispatch_plain_iff (h : Coordinator.Steady c) (hd : thread.phase = .dispatching)
    {s : Section} (hs : thread.frame.section input = some s) (hstop : s ≠ .stop)
    (hcontrol : ∀ request fault, s ≠ .control request fault) :
    thread.authenticates c input ↔ ¬thread.unauthenticated c input := by
  have hshutdown : thread.frame.type ≠ .shutdown := fun htype =>
    hstop (Option.some.inj (hs.symm.trans (Frame.section_stop.mpr htype)))
  have hrequest : ∀ request, thread.frame.type = .controlRequest →
      decodeControlRequest thread.frame.payload ≠ .ok request := fun request htype hdecode =>
    hcontrol request input.fault
      (Option.some.inj (hs.symm.trans (Frame.section_control.mpr ⟨htype, hdecode, rfl⟩)))
  have hun : thread.unauthenticated c input ↔ c.revokesLast s := by
    rw [unauthenticated_of_dispatching hd hs]
    constructor
    · rintro (⟨htype, -⟩ | ⟨request, htype, hdecode, -⟩ | hlast)
      · exact absurd htype hshutdown
      · exact absurd hdecode (hrequest request htype)
      · exact hlast
    · exact fun hlast => Or.inr (Or.inr hlast)
  rw [hun]
  constructor
  · intro hall hlast
    obtain ⟨c', hp, hrevokes⟩ := Coordinator.revokesAll_of_revokesLast h hlast
    obtain ⟨request, -, htype, hdecode, -⟩ :=
      hall c' (advance_of_dispatching hd hs ▸ hp) (Or.inr (Or.inr (Or.inl hrevokes)))
    exact hrequest request htype hdecode
  · intro hlast
    refine authenticates_of_not_administers h fun t hsome => ?_
    rw [advance_of_dispatching hd hs] at hsome
    obtain rfl := Option.some.inj hsome
    refine ⟨fun hor => hor.elim (fun hadmin => ?_) hlast, fun _ _ _ _ heq =>
      Frame.section_leaseRequest (heq ▸ hs)⟩
    cases s with
    | stop => exact hstop rfl
    | control request fault => exact hcontrol request fault rfl
    | advanceEpoch fault => exact Frame.section_ne_advanceEpoch fault hs
    | _ => exact hadmin

theorem not_unauthenticated_of_unserved (hd : thread.phase = .dispatching)
    (hs : thread.frame.section input = none) : ¬thread.unauthenticated c input := by
  intro hu
  unfold unauthenticated at hu
  simp only [hd] at hu
  rcases hu with ⟨htype, -⟩ | ⟨request, htype, hdecode, -⟩ | ⟨s, hsome, -⟩
  · rw [Frame.section_stop.mpr htype] at hs
    cases hs
  · rw [Frame.section_control.mpr ⟨htype, hdecode, rfl⟩] at hs
    cases hs
  · rw [hs] at hsome
    cases hsome

/-- The sections that count, and read for a reply. -/
def clerical : Section → Prop
  | .connected | .frameIn | .frameOut | .denyLease _ | .countDenied | .answerControl _ => True
  | _ => False

/-- Outside the switch, and before a control request is answered, a thread only counts. -/
theorem advance_clerical (hd : thread.phase ≠ .dispatching)
    (ha : ∀ request response, thread.phase ≠ .answered request response) {s : Section}
    (hs : (thread.advance c input).1 = some s) : clerical s := by
  unfold advance at hs
  cases hp : thread.phase with
  | dispatching => exact absurd hp hd
  | answered request response => exact absurd hp (ha request response)
  | connecting =>
    simp only [hp] at hs
    obtain rfl := Option.some.inj hs
    trivial
  | looping =>
    simp only [hp] at hs
    cases hs
  | receiving =>
    simp only [hp] at hs
    cases hr : input.received with
    | error error =>
      simp only [hr] at hs
      split_ifs at hs
      obtain rfl := Option.some.inj hs
      trivial
    | ok frame =>
      simp only [hr] at hs
      obtain rfl := Option.some.inj hs
      trivial
  | denying error =>
    simp only [hp] at hs
    obtain rfl := Option.some.inj hs
    trivial
  | countingDenied =>
    simp only [hp] at hs
    obtain rfl := Option.some.inj hs
    trivial
  | replying counted =>
    simp only [hp] at hs
    split_ifs at hs
    obtain rfl := Option.some.inj hs
    trivial
  | answering request response =>
    simp only [hp] at hs
    obtain rfl := Option.some.inj hs
    trivial
  | ended =>
    simp only [hp] at hs
    cases hs

/-- One step of a thread is authenticated exactly when it is none of those. -/
theorem authenticates_iff (h : Coordinator.Steady c) (ht : thread.sound c) (input : Input) :
    thread.authenticates c input ↔ ¬thread.unauthenticated c input := by
  by_cases hd : thread.phase = .dispatching
  · cases hs : thread.frame.section input with
    | none =>
      refine iff_of_true (authenticates_of_not_administers h fun s hsome => ?_)
        (not_unauthenticated_of_unserved hd hs)
      unfold advance at hsome
      simp only [hd, hs] at hsome
      cases hsome
    | some s =>
      cases s with
      | stop => exact dispatch_stop_iff hd hs
      | control request fault =>
        obtain ⟨-, -, rfl⟩ := Frame.section_control.mp hs
        exact dispatch_control_iff h hd hs
      | _ => exact dispatch_plain_iff h hd hs (by simp) (by simp)
  · by_cases ha : ∃ request response, thread.phase = .answered request response
    · obtain ⟨request, response, ha⟩ := ha
      exact answered_iff ht ha
    · push Not at ha
      refine iff_of_true (authenticates_of_not_administers h fun s hsome => ?_) fun hu => ?_
      · have hclerical := advance_clerical hd ha hsome
        cases s <;> first
          | exact hclerical.elim
          | exact ⟨fun hor => hor.elim id id, fun _ _ _ _ heq => by cases heq⟩
      · unfold unauthenticated at hu
        cases hp : thread.phase with
        | dispatching => exact hd hp
        | answered request response => exact ha request response hp
        | _ => simp only [hp] at hu

/-! ### Runs -/

theorem sound_of_phase {frame : Frame} {phase : Phase}
    (hanswering : ∀ request response, phase ≠ .answering request response)
    (hanswered : ∀ request response, phase ≠ .answered request response) :
    ({ phase, frame } : Thread).sound c := by
  unfold sound
  cases phase with
  | answering request response => exact absurd rfl (hanswering request response)
  | answered request response => exact absurd rfl (hanswered request response)
  | _ => trivial

theorem controlReply_ok (c : Coordinator) (request : ControlRequest) (response : ControlResponse) :
    (c.controlReply request response).ok = response.ok := by
  unfold Coordinator.controlReply
  split_ifs <;> rfl

theorem handleControl_shutdown_ok (c : Coordinator) {request : ControlRequest}
    (hop : request.opcode = .shutdown) (fault : Option AtomicWriteFault) :
    (c.handleControl request fault).2.ok = true ↔ c.tokenAccepted request := by
  unfold Coordinator.handleControl
  by_cases haccepted : c.tokenAccepted request
  · simp [haccepted, hop]
  · simp [haccepted]

/-- Only a control request is answered from the switch. -/
theorem phaseAfter_ne_answering (c : Coordinator) {s : Section}
    (hs : ∀ request fault, s ≠ .control request fault) (request : ControlRequest)
    (response : ControlResponse) :
    c.phaseAfter s ≠ .answering request response ∧ c.phaseAfter s ≠ .answered request response := by
  cases s with
  | control other fault => exact absurd rfl (hs other fault)
  | leaseRequest _ _ _ _ =>
    unfold Coordinator.phaseAfter
    simp only
    split <;> simp
  | leaseRenew _ _ =>
    unfold Coordinator.phaseAfter
    simp only
    split <;> simp
  | _ => exact ⟨by simp [Coordinator.phaseAfter], by simp [Coordinator.phaseAfter]⟩

/-- A step leaves the thread sound. -/
theorem sound_advance (ht : thread.sound c) (input : Input) :
    (thread.advance c input).2.sound c := by
  unfold advance
  cases hp : thread.phase with
  | dispatching =>
    cases hs : thread.frame.section input with
    | none =>
      simp only
      split_ifs <;> exact sound_of_phase (by simp) (by simp)
    | some s =>
      by_cases hc : ∃ request fault, s = .control request fault
      · obtain ⟨request, fault, rfl⟩ := hc
        obtain ⟨htype, hdecode, -⟩ := Frame.section_control.mp hs
        exact ⟨htype, hdecode, fun hop => handleControl_shutdown_ok c hop fault⟩
      · push Not at hc
        exact sound_of_phase (fun request response => (phaseAfter_ne_answering c hc request response).1)
          (fun request response => (phaseAfter_ne_answering c hc request response).2)
  | answering request response =>
    unfold sound at ht
    simp only [hp] at ht
    refine ⟨ht.1, ht.2.1, fun hop => ?_⟩
    rw [controlReply_ok]
    exact ht.2.2 hop
  | receiving =>
    cases hr : input.received with
    | error error => exact sound_of_phase (by simp) (by simp)
    | ok frame => exact sound_of_phase (by simp) (by simp)
  | replying counted =>
    simp only
    split_ifs <;> exact sound_of_phase (by simp) (by simp)
  | looping =>
    simp only
    split_ifs <;> exact sound_of_phase (by simp) (by simp)
  | ended => exact ht
  | _ => exact sound_of_phase (by simp) (by simp)

theorem sound_congr (hc : c'.config = c.config) (ht : thread.sound c) : thread.sound c' := by
  unfold sound Coordinator.tokenAccepted at ht ⊢
  rw [hc]
  exact ht

end Thread

/-- What holds of every server of a run. -/
structure Server.Sound (server : Server) : Prop where
  steady : Coordinator.Steady server.coordinator
  threads : ∀ id, (server.threads id).sound server.coordinator

namespace Server

variable {server server' : Server}

theorem performed_steady {c c' : Coordinator} (h : Coordinator.Steady c) {s : Option Section}
    (hp : performed c s = some c') : Coordinator.Steady c' ∧ c'.config = c.config := by
  cases s with
  | none =>
    obtain rfl := Option.some.inj hp
    exact ⟨h, rfl⟩
  | some s => exact ⟨h.step hp, Coordinator.perform_config h.sound hp⟩

theorem Sound.step (h : server.Sound) {event : ServerEvent} (hs : server.serve event = some server') :
    server'.Sound := by
  cases event with
  | session id input =>
    obtain ⟨c', hp, rfl⟩ := Option.map_eq_some_iff.mp hs
    obtain ⟨hsteady, hconfig⟩ := performed_steady h.steady hp
    refine ⟨hsteady, fun other => Thread.sound_congr hconfig ?_⟩
    by_cases heq : other = id
    · subst heq
      simp only [Function.update_self]
      exact Thread.sound_advance (h.threads other) input
    · simp only [Function.update_of_ne heq]
      exact h.threads other
  | advanceEpoch fault =>
    have hmap : (server.coordinator.perform (.advanceEpoch fault)).map
        (fun coordinator => { server with coordinator }) = some server' := hs
    obtain ⟨c', hp, rfl⟩ := Option.map_eq_some_iff.mp hmap
    obtain ⟨hsteady, hconfig⟩ := performed_steady (s := some (.advanceEpoch fault)) h.steady hp
    exact ⟨hsteady, fun other => Thread.sound_congr hconfig (h.threads other)⟩
  | stop =>
    have hmap : (server.coordinator.perform .stop).map
        (fun coordinator => { server with coordinator }) = some server' := hs
    obtain ⟨c', hp, rfl⟩ := Option.map_eq_some_iff.mp hmap
    obtain ⟨hsteady, hconfig⟩ := performed_steady (s := some .stop) h.steady hp
    exact ⟨hsteady, fun other => Thread.sound_congr hconfig (h.threads other)⟩

theorem sound_of_bringUp {config : CoordinatorConfig} {environment : Coordinator.StartEnvironment}
    {disk : Option Text} (h : bringUp config environment disk = some server) : server.Sound := by
  obtain ⟨c, hl, rfl⟩ := Option.map_eq_some_iff.mp h
  exact ⟨Coordinator.steady_of_launch hl, fun _ => trivial⟩

/-- Every server a run meets is sound. -/
theorem sound_of_mem_calls {config : CoordinatorConfig} {environment : Coordinator.StartEnvironment}
    {disk : Option Text} {events : List ServerEvent} {call : Option Server × ServerEvent}
    (h : call ∈ calls step (bringUp config environment disk) events)
    (hs : call.1 = some server) : server.Sound := by
  refine calls_invariant (P := fun o : Option Server => ∀ server, o = some server → server.Sound)
    (fun o event ho next hnext => ?_) (fun start hstart => sound_of_bringUp hstart) h server hs
  cases o with
  | none => cases hnext
  | some before => exact (ho before rfl).step hnext

/-- Under every interleaving of sessions: the coordinator is administered by authenticated control
requests only, exactly when no thread takes one of those steps. -/
theorem run_control_authenticated_iff (config : CoordinatorConfig)
    (environment : Coordinator.StartEnvironment) (disk : Option Text) (events : List ServerEvent) :
    (∀ call ∈ calls step (bringUp config environment disk) events, ∀ server id input,
        call.1 = some server → call.2 = .session id input →
          (server.threads id).authenticates server.coordinator input) ↔
      ∀ call ∈ calls step (bringUp config environment disk) events, ∀ server id input,
        call.1 = some server → call.2 = .session id input →
          ¬(server.threads id).unauthenticated server.coordinator input := by
  have hiff : ∀ call ∈ calls step (bringUp config environment disk) events, ∀ server,
      call.1 = some server → ∀ id input,
        ((server.threads id).authenticates server.coordinator input ↔
          ¬(server.threads id).unauthenticated server.coordinator input) := by
    intro call hcall server hserver id input
    have hsound := sound_of_mem_calls hcall hserver
    exact Thread.authenticates_iff hsound.steady (hsound.threads id) input
  constructor
  · intro h call hcall server id input hserver hevent
    exact (hiff call hcall server hserver id input).mp (h call hcall server id input hserver hevent)
  · intro h call hcall server id input hserver hevent
    exact (hiff call hcall server hserver id input).mpr (h call hcall server id input hserver hevent)

/-- A coordinator with a control token. -/
def tokenConfig : CoordinatorConfig := { controlToken := ascii "secret" }

/-- A session connects and receives one Shutdown frame. -/
def shutdownReceived : List ServerEvent :=
  [.session 0 {}, .session 0 {}, .session 0 { received := .ok { type := .shutdown } }]

/-- The server before that frame is dispatched. -/
def beforeShutdown : Server :=
  (run step (bringUp tokenConfig {} none) shutdownReceived).get (by decide +kernel)

/-- The Shutdown frame of a session without a token stops the coordinator. -/
theorem shutdown_frame_stops :
    ¬∀ (config : CoordinatorConfig) (environment : Coordinator.StartEnvironment)
      (disk : Option Text) (events : List ServerEvent),
      ∀ call ∈ calls step (bringUp config environment disk) events, ∀ server id input,
        call.1 = some server → call.2 = .session id input →
          (server.threads id).authenticates server.coordinator input := by
  intro h
  have hmem : (some beforeShutdown, ServerEvent.session 0 {}) ∈
      calls step (bringUp tokenConfig {} none) (shutdownReceived ++ [.session 0 {}]) :=
    (mem_calls_iff step).mpr ⟨shutdownReceived, [], rfl, Option.some_get _⟩
  have hauth := h tokenConfig {} none _ _ hmem beforeShutdown 0 {} rfl rfl
  have hrunning : beforeShutdown.coordinator.stopping = false := by decide +kernel
  have htype : (beforeShutdown.threads 0).frame.type = .shutdown := by decide +kernel
  have hphase : (beforeShutdown.threads 0).phase = .dispatching := rfl
  have hsection : ((beforeShutdown.threads 0).advance beforeShutdown.coordinator {}).1 =
      some .stop :=
    Thread.advance_of_dispatching hphase (Frame.section_stop.mpr htype)
  have hperformed : performed beforeShutdown.coordinator
      ((beforeShutdown.threads 0).advance beforeShutdown.coordinator {}).1 =
        some { beforeShutdown.coordinator with stopping := true } := by
    rw [hsection]
    rfl
  obtain ⟨_, _, hcontrol, -⟩ := hauth _ hperformed
    ((Thread.administered_stop_iff _ _).mpr hrunning)
  rw [htype] at hcontrol
  cases hcontrol

end Server

end IncastGovernor
