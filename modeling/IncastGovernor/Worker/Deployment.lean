import IncastGovernor.Coordinator.Sessions
import IncastGovernor.Worker.Client

/-! The coordinator and its workers. Every worker talks to the thread of its own session over a
connection that keeps the order of its frames; it waits for the reply to a call before it makes
the next, and a process whose call fails makes no further one. A run is a list of events in
any order: a worker calls, a session's thread takes a step, a worker settles a call, and
operators and the hosting program go through their sections. -/

namespace IncastGovernor

open Foundation

open Coordinator (Section)

namespace ErrorCode

def all : List ErrorCode :=
  [.none, .invalidArgument, .outOfRange, .overflow, .underflow, .divideByZero, .capacityExceeded,
    .malformedInput, .truncatedInput, .oversizedInput, .checksumMismatch, .unsupportedVersion,
    .notFound, .alreadyExists, .illegalTransition, .staleGeneration, .fencedEpoch, .staleBoot,
    .notAuthorized, .ioFailure, .corruptState, .closed, .protocolViolation, .identityCollision,
    .protectedFloorConflict, .unknownEvidence, .cancelled]

def value (code : ErrorCode) : UInt16 := UInt16.ofNat (all.idxOf code)

end ErrorCode

/-! ### Replies of the coordinator -/

namespace Coordinator

variable (c : Coordinator)

def grantFrame (grant : MessageLeaseGrant) : Frame :=
  { type := .leaseGrant, payload := encodeLeaseGrant grant }

def deniedFrame (denied : MessageLeaseDenied) : Frame :=
  { type := .leaseDenied, payload := encodeLeaseDenied denied }

def errorFrame (error : Error) : Frame :=
  { type := .error, payload := encodeError ⟨error.code.value, error.detail⟩ }

/-- The reply that `handle_connection` composes from a section. A refused lease request is
answered behind the section that counts the denial. -/
def replyFrame : Section → Option Frame
  | .hello _ => some { type := .helloAck, payload := encodeHelloAck c.hello.2 }
  | .leaseRequest request now order fault =>
    (c.granted (.leaseRequest request now order fault)).map grantFrame
  | .denyLease error => some (deniedFrame (c.denyLease error).2)
  | .leaseRenew renew now =>
    match (c.renewLease renew now).2 with
    | .ok grant => some (grantFrame grant)
    | .error denied => some (deniedFrame denied)
  | .decisionPublish publish now =>
    some { type := .decisionAck, payload := encodeDecisionAck (c.publishDecision publish now).2 }
  | .heartbeat => some { type := .heartbeatAck, payload := encodeEpochAdvance c.heartbeat }
  | _ => none

end Coordinator

/-- The frame a step of a thread composes. -/
def Thread.composes (thread : Thread) (c : Coordinator) (input : Input) : Option Frame :=
  match thread.phase with
  | .dispatching =>
    match thread.frame.section input with
    | some s => c.replyFrame s
    | none =>
      if thread.frame.served then none
      else some (Coordinator.errorFrame ⟨.protocolViolation, ascii "unsupported frame type"⟩)
  | .denying error => c.replyFrame (.denyLease error)
  | .answering request response =>
    some
      { type := .controlResponse
        payload := encodeControlResponse (c.controlReply request response) }
  | _ => none

/-! ### Connections and processes -/

/-- The connection of a session: a request on its way, the reply its thread has composed, and
the frames on their way back. -/
structure Link where
  request : Option Frame := none
  composed : Option Frame := none
  replies : List Frame := []

namespace Link

/-- What a step of the thread finds; none while it waits for a frame. A reception fails, or
gives the request on its way. -/
def arriving (link : Link) (thread : Thread) (input : Input) : Option Input :=
  match thread.phase, input.received with
  | .receiving, .ok _ => link.request.map fun frame => { input with received := .ok frame }
  | _, _ => some input

/-- The connection behind a step of the thread. -/
def after (link : Link) (thread : Thread) (c : Coordinator) (input : Input) : Link :=
  match thread.phase with
  | .receiving =>
    match input.received with
    | .ok _ => { link with request := none }
    | .error error =>
      if error.code = .closed ∨ error.code = .truncatedInput then link
      else { link with replies := link.replies ++ [Coordinator.errorFrame error] }
  | .replying _ | .answered _ _ =>
    if input.sent then
      { link with composed := none, replies := link.replies ++ link.composed.toList }
    else link
  | _ => { link with composed := (thread.composes c input).or link.composed }

end Link

/-- A worker process, with the decisions it published and the answers it got for them. -/
structure Process where
  worker : GovernorWorker := {}
  calling : Option Call := none
  ended : Bool := false
  published : List MessageDecisionPublish := []
  answers : List (MessageDecisionPublish × MessageDecisionAck) := []

namespace GovernorWorker

/-- The decision of a call, as it is published. -/
def publishes (w : GovernorWorker) : Call → List MessageDecisionPublish
  | .publish decision => [w.decisionMessage decision]
  | _ => []

/-- The answer to the decision of a call. -/
def answered (w : GovernorWorker) :
    Call → Answer → List (MessageDecisionPublish × MessageDecisionAck)
  | .publish decision, .ack (.ok ack) => [(w.decisionMessage decision, ack)]
  | _, _ => []

end GovernorWorker

namespace Process

/-- The process with a call under way. -/
def start (p : Process) (call : Call) (sent : Bool) : Process :=
  { p with
    worker := p.worker.sending call
    calling := some call
    ended := !sent
    published := p.published ++ (p.worker.sending call).publishes call }

/-- The process behind a call that failed. -/
def fail (p : Process) (call : Call) (error : Error) : Process :=
  { p with worker := (p.worker.settle call (.error error)).1, ended := true }

/-- The process behind the reply to a call. -/
def finish (p : Process) (call : Call) (frame : Frame) : Process :=
  let settled := p.worker.settle call (.ok frame)
  if settled.2.failed then { p with worker := settled.1, ended := true }
  else
    { p with
      worker := settled.1
      calling := none
      answers := p.answers ++ p.worker.answered call settled.2 }

end Process

/-! ### Runs -/

/-- A coordinator with its workers, the grants it sent, the latest first, and the decisions it
answered. -/
structure Deployment where
  server : Server
  links : ℕ → Link := fun _ => {}
  processes : ℕ → Process
  grants : List MessageLeaseGrant := []
  decisions : List (MessageDecisionPublish × Bool) := []

/-- A section of an operator's session or of the hosting program: none of them grants a lease or
answers a decision. -/
def Coordinator.Section.operates : Section → Bool
  | .leaseRequest _ _ _ _ | .leaseRenew _ _ | .decisionPublish _ _ => false
  | _ => true

inductive DeploymentEvent where
  | call (id : ℕ) (call : Call) (sent : Bool)
  | session (id : ℕ) (input : Input)
  | settle (id : ℕ) (lost : Option Error)
  | close (id : ℕ)
  | operate (s : Section)

namespace Deployment

variable (d : Deployment)

def coordinator : Coordinator := d.server.coordinator

/-- The frame of a call goes out; a handshake opens a session of its own. -/
def call (id : ℕ) (call : Call) (sent : Bool) : Deployment :=
  let p := d.processes id
  if p.ended ∨ p.calling.isSome then d
  else
    match p.worker.checks call with
    | .error _ => d
    | .ok () =>
      let request := if sent then some ((p.worker.sending call).frame call) else none
      let processes := Function.update d.processes id (p.start call sent)
      match call with
      | .connectAndHandshake =>
        { d with
          server := { d.server with threads := Function.update d.server.threads id {} }
          links := Function.update d.links id { request }
          processes }
      | _ => { d with links := Function.update d.links id { d.links id with request }, processes }

/-- The section an event performs. -/
def performs : DeploymentEvent → Option Section
  | .session id input =>
    ((d.links id).arriving (d.server.threads id) input).bind fun input =>
      ((d.server.threads id).advance d.coordinator input).1
  | .operate s => if s.operates then some s else none
  | _ => none

/-- A step of a session's thread, over its connection. -/
def session (id : ℕ) (input : Input) : Option Deployment :=
  let thread := d.server.threads id
  match (d.links id).arriving thread input with
  | none => some d
  | some input =>
    (d.server.serve (.session id input)).map fun server =>
      { d with server, links := Function.update d.links id ((d.links id).after thread d.coordinator input) }

/-- A reply arrives, or the exchange fails. -/
def settle (id : ℕ) (lost : Option Error) : Deployment :=
  let p := d.processes id
  match p.calling with
  | none => d
  | some call =>
    if p.ended then d
    else
      match lost, (d.links id).replies with
      | some error, _ => { d with processes := Function.update d.processes id (p.fail call error) }
      | none, [] => d
      | none, frame :: replies =>
        { d with
          links := Function.update d.links id { d.links id with replies }
          processes := Function.update d.processes id (p.finish call frame) }

def close (id : ℕ) : Deployment :=
  let p := d.processes id
  if p.ended ∨ p.calling.isSome then d
  else { d with processes := Function.update d.processes id { p with worker := p.worker.close } }

def operate (s : Section) : Option Deployment :=
  if s.operates then
    (d.coordinator.perform s).map fun coordinator =>
      { d with server := { d.server with coordinator } }
  else some d

/-- What an event grants and answers. -/
def logged (d' : Deployment) : Option Section → Deployment
  | none => d'
  | some s =>
    { d' with
      grants := (d.coordinator.granted s).toList ++ d'.grants
      decisions := d'.decisions ++ d.coordinator.published s }

def perform (event : DeploymentEvent) : Option Deployment :=
  (match event with
    | .call id call sent => some (d.call id call sent)
    | .session id input => d.session id input
    | .settle id lost => some (d.settle id lost)
    | .close id => some (d.close id)
    | .operate s => d.operate s).map fun d' => d.logged d' (d.performs event)

/-- An event in a process that may have died. -/
def step (d : Option Deployment) (event : DeploymentEvent) : Option Deployment :=
  d.bind fun d => d.perform event

/-- A coordinator that `start` brings up, with workers that have not connected yet. -/
def launch (config : CoordinatorConfig) (environment : Coordinator.StartEnvironment)
    (disk : Option Text) (workers : ℕ → WorkerConfig) : Option Deployment :=
  (Server.bringUp config environment disk).map fun server =>
    { server, processes := fun id => { worker := { config := workers id } } }

end Deployment

end IncastGovernor
