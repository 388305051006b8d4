import IncastGovernor.Coordinator.MessageCodec
import IncastGovernor.Transport.Frame

/-! The worker's side of the protocol. A call checks what the worker knows, sends one frame and
settles the reply that comes back for it; what the connection makes of the exchange is the
outcome of that reply. The worker keeps the epoch it was told last, the grant of its lease and
the sequence of its last publication. -/

namespace IncastGovernor

structure WorkerConfig where
  worker : WorkerId := {}
  boot : BootIncarnation := {}
  destination : DestinationId := {}
  destinationGeneration : DestinationGeneration := {}
  policy : PolicyId := {}
  policyGeneration : PolicyGeneration := {}
  name : Text := ascii "worker"

structure GovernorWorker where
  config : WorkerConfig := {}
  epoch : EpochId := {}
  handshaken : Bool := false
  fenced : Bool := false
  sequence : UInt64 := 0
  lease : MessageLeaseGrant := {}

/-- The functions of a worker that exchange a frame with the coordinator. -/
inductive Call where
  | connectAndHandshake
  | acquireLease
  | renewLease
  | publish (decision : Decision)
  | sendHeartbeat

/-- What a call returns. -/
inductive Answer where
  | status (status : Status)
  | grant (grant : Outcome MessageLeaseGrant)
  | ack (ack : Outcome MessageDecisionAck)

/-- The call failed; a denied lease is an answer. -/
def Answer.failed : Answer → Bool
  | .status (.error _) | .ack (.error _) => true
  | .grant (.error error) => error.code ≠ .fencedEpoch
  | _ => false

namespace GovernorWorker

variable (w : GovernorWorker)

/-! ### Requests -/

def helloMessage : MessageHello :=
  { worker := w.config.worker, boot := w.config.boot, name := w.config.name }

def leaseRequestMessage : MessageLeaseRequest :=
  { worker := w.config.worker
    boot := w.config.boot
    destination := w.config.destination
    destinationGeneration := w.config.destinationGeneration
    policy := w.config.policy
    policyGeneration := w.config.policyGeneration
    attempt := 1 }

def leaseRenewMessage : MessageLeaseRenew :=
  { lease := w.lease.lease
    epoch := w.epoch
    boot := w.config.boot
    worker := w.config.worker
    attempt := w.lease.attempt }

def decisionMessage (decision : Decision) : MessageDecisionPublish :=
  { lease := w.lease.lease
    epoch := w.epoch
    boot := w.config.boot
    worker := w.config.worker
    destination := w.config.destination
    window := decision.window
    windowGeneration := decision.windowGeneration
    kind := decision.kind
    severity := decision.severity
    outcome := decision.outcome
    mitigation := decision.intent.kind
    intervention := decision.intent.intervention
    reductionBp := decision.intent.reductionBp
    stateGeneration := decision.stateGeneration
    decidedAt := decision.decidedAt
    sequence := w.sequence }

/-- The frame of a call. -/
def frame : Call → Frame
  | .connectAndHandshake => { type := .hello, payload := encodeHello w.helloMessage }
  | .acquireLease =>
    { type := .leaseRequest, payload := encodeLeaseRequest w.leaseRequestMessage }
  | .renewLease => { type := .leaseRenew, payload := encodeLeaseRenew w.leaseRenewMessage }
  | .publish decision =>
    { type := .decisionPublish, payload := encodeDecisionPublish (w.decisionMessage decision) }
  | .sendHeartbeat => { type := .heartbeat }

/-- The checks of a call. -/
def checks : Call → Status
  | .connectAndHandshake => .ok ()
  | .renewLease =>
    if ¬w.handshaken then fail .notAuthorized "worker has not completed the handshake"
    else if ¬w.lease.lease.valid then fail .notAuthorized "worker holds no lease"
    else .ok ()
  | _ =>
    if ¬w.handshaken then fail .notAuthorized "worker has not completed the handshake"
    else .ok ()

/-- The worker as it sends the frame of a call: every publication takes the next sequence. -/
def sending : Call → GovernorWorker
  | .publish _ => { w with sequence := w.sequence + 1 }
  | _ => w

/-! ### Replies -/

def fence (epoch : EpochId) : GovernorWorker := { w with fenced := true, epoch }

def handshakeReply (reply : Frame) : GovernorWorker × Status :=
  if reply.type ≠ .helloAck then
    (w, fail .protocolViolation "coordinator did not acknowledge the handshake")
  else
    match decodeHelloAck reply.payload with
    | .error error => (w, .error error)
    | .ok ack => ({ w with epoch := ack.epoch, handshaken := true, fenced := false }, .ok ())

/-- The reply to a request or a renewal, which differ in the worker a grant leaves. -/
def grantReply (granted : MessageLeaseGrant → GovernorWorker) (unexpected : String)
    (reply : Frame) : GovernorWorker × Outcome MessageLeaseGrant :=
  match reply.type with
  | .leaseDenied =>
    match decodeLeaseDenied reply.payload with
    | .error error => (w, .error error)
    | .ok denied => (w.fence denied.currentEpoch, .error ⟨.fencedEpoch, denied.detail⟩)
  | .leaseGrant =>
    match decodeLeaseGrant reply.payload with
    | .error error => (w, .error error)
    | .ok grant => (granted grant, .ok grant)
  | _ => (w, fail .protocolViolation unexpected)

def leaseReply (reply : Frame) : GovernorWorker × Outcome MessageLeaseGrant :=
  w.grantReply (fun grant => { w with lease := grant, epoch := grant.epoch, fenced := false })
    "unexpected reply to a lease request" reply

/-- A renewal takes the epoch of the grant and leaves the worker fenced if it was. -/
def renewReply (reply : Frame) : GovernorWorker × Outcome MessageLeaseGrant :=
  w.grantReply (fun grant => { w with lease := grant, epoch := grant.epoch })
    "unexpected reply to a lease renewal" reply

def publishReply (reply : Frame) : GovernorWorker × Outcome MessageDecisionAck :=
  match reply.type with
  | .epochAdvance =>
    match decodeEpochAdvance reply.payload with
    | .error error => (w, .error error)
    | .ok advance =>
      (w.fence advance.epoch,
        .ok { reason := .epochMismatch, detail := advance.reason, currentEpoch := advance.epoch })
  | .decisionAck =>
    match decodeDecisionAck reply.payload with
    | .error error => (w, .error error)
    | .ok ack =>
      (if ¬ack.accepted ∧ (ack.reason = .epochMismatch ∨ ack.reason = .bootMismatch) then
          w.fence ack.currentEpoch
        else w,
        .ok ack)
  | _ => (w, fail .protocolViolation "unexpected reply to a decision publish")

def heartbeatReply (reply : Frame) : GovernorWorker × Status :=
  if reply.type ≠ .heartbeatAck then
    (w, fail .protocolViolation "unexpected reply to a heartbeat")
  else
    match decodeEpochAdvance reply.payload with
    | .error error => (w, .error error)
    | .ok advance => (if advance.epoch ≠ w.epoch then w.fence advance.epoch else w, .ok ())

/-! ### Calls -/

/-- What a call that fails returns. -/
def failure (error : Error) : Call → Answer
  | .connectAndHandshake | .sendHeartbeat => .status (.error error)
  | .acquireLease | .renewLease => .grant (.error error)
  | .publish _ => .ack (.error error)

def reply : Call → Frame → GovernorWorker × Answer
  | .connectAndHandshake, frame => (w.handshakeReply frame).map id .status
  | .acquireLease, frame => (w.leaseReply frame).map id .grant
  | .renewLease, frame => (w.renewReply frame).map id .grant
  | .publish _, frame => (w.publishReply frame).map id .ack
  | .sendHeartbeat, frame => (w.heartbeatReply frame).map id .status

/-- The end of a call: the reply it settles, or the error that sending or receiving gave. -/
def settle (call : Call) : Outcome Frame → GovernorWorker × Answer
  | .error error => (w, failure error call)
  | .ok frame => w.reply call frame

/-- A call over a connection that makes an outcome of the frame it is given. -/
def perform (call : Call) (exchange : Frame → Outcome Frame) : GovernorWorker × Answer :=
  match w.checks call with
  | .error error => (w, failure error call)
  | .ok () => (w.sending call).settle call (exchange ((w.sending call).frame call))

def close : GovernorWorker := { w with handshaken := false }

end GovernorWorker

end IncastGovernor
