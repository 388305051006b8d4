import IncastGovernor.Worker.Exchange

/-! What the frames of a session carry. The coordinator dispatches the frame of a call to the
section of that call, and the worker settles the reply that the section composes: it takes the
grant, the epoch or the acknowledgement that the coordinator put into it, and no reply of a
section fails a call. -/

namespace IncastGovernor

open Foundation

open Coordinator (Section)

/-- A decision as the coordinator reads it: the reduction arrives by value. -/
def MessageDecisionPublish.delivered (message : MessageDecisionPublish) : MessageDecisionPublish :=
  { message with reductionBp := { message.reductionBp with clamped := false } }

/-! ### Messages of a session, each decoded as it is kept -/

section Messages

open MessageType (decode_encode cut)

@[simp] theorem decodeHello_encodeHello (message : MessageHello) :
    decodeHello (encodeHello message) = .ok { message with name := cut message.name } :=
  @decode_encode .hello message id

@[simp] theorem decodeHelloAck_encodeHelloAck (message : MessageHelloAck) :
    decodeHelloAck (encodeHelloAck message) = .ok message :=
  @decode_encode .helloAck message id

@[simp] theorem decodeLeaseRequest_encodeLeaseRequest (message : MessageLeaseRequest) :
    decodeLeaseRequest (encodeLeaseRequest message) = .ok message :=
  @decode_encode .leaseRequest message id

@[simp] theorem decodeLeaseGrant_encodeLeaseGrant (message : MessageLeaseGrant) :
    decodeLeaseGrant (encodeLeaseGrant message) = .ok message :=
  @decode_encode .leaseGrant message id

@[simp] theorem decodeLeaseDenied_encodeLeaseDenied (message : MessageLeaseDenied) :
    decodeLeaseDenied (encodeLeaseDenied message) =
      .ok { message with detail := cut message.detail } :=
  @decode_encode .leaseDenied message id

@[simp] theorem decodeLeaseRenew_encodeLeaseRenew (message : MessageLeaseRenew) :
    decodeLeaseRenew (encodeLeaseRenew message) = .ok message :=
  @decode_encode .leaseRenew message id

@[simp] theorem decodeEpochAdvance_encodeEpochAdvance (message : MessageEpochAdvance) :
    decodeEpochAdvance (encodeEpochAdvance message) =
      .ok { message with reason := cut message.reason } :=
  @decode_encode .epochAdvance message id

@[simp] theorem decodeDecisionPublish_encodeDecisionPublish (message : MessageDecisionPublish) :
    decodeDecisionPublish (encodeDecisionPublish message) = .ok message.delivered :=
  @decode_encode .decisionPublish message id

@[simp] theorem decodeDecisionAck_encodeDecisionAck (message : MessageDecisionAck) :
    decodeDecisionAck (encodeDecisionAck message) =
      .ok { message with detail := cut message.detail } :=
  @decode_encode .decisionAck message id

end Messages

namespace GovernorWorker

variable (w : GovernorWorker)

/-! ### Requests -/

/-- The section that the frame of a call is dispatched to. -/
def dispatched (input : Input) : Call → Section
  | .connectAndHandshake => .hello { w.helloMessage with name := MessageType.cut w.config.name }
  | .acquireLease => .leaseRequest w.leaseRequestMessage input.now input.order input.fault
  | .renewLease => .leaseRenew w.leaseRenewMessage input.now
  | .publish decision => .decisionPublish (w.decisionMessage decision).delivered input.now
  | .sendHeartbeat => .heartbeat

theorem section_frame (call : Call) (input : Input) :
    (w.frame call).section input = some (w.dispatched input call) := by
  cases call <;> simp [Frame.section, frame, dispatched, Except.toOption, helloMessage]

theorem calls_dispatched (call : Call) (input : Input) : (w.dispatched input call).calls := by
  cases call <;> trivial

/-! ### Replies -/

/-- The worker behind a grant. Only a request ends the fencing. -/
def granted (call : Call) (grant : MessageLeaseGrant) : GovernorWorker :=
  match call with
  | .acquireLease => { w with lease := grant, epoch := grant.epoch, fenced := false }
  | _ => { w with lease := grant, epoch := grant.epoch }

theorem settle_grant {call : Call} (hc : call = .acquireLease ∨ call = .renewLease)
    (grant : MessageLeaseGrant) :
    w.settle call (.ok (Coordinator.grantFrame grant)) =
      (w.granted call grant, .grant (.ok grant)) := by
  rcases hc with rfl | rfl <;>
    simp [settle, reply, leaseReply, renewReply, grantReply, Coordinator.grantFrame, granted]

theorem settle_denied {call : Call} (hc : call = .acquireLease ∨ call = .renewLease)
    (denied : MessageLeaseDenied) :
    w.settle call (.ok (Coordinator.deniedFrame denied)) =
      (w.fence denied.currentEpoch,
        .grant (.error ⟨.fencedEpoch, MessageType.cut denied.detail⟩)) := by
  rcases hc with rfl | rfl <;>
    simp [settle, reply, leaseReply, renewReply, grantReply, Coordinator.deniedFrame]

theorem settle_hello (ack : MessageHelloAck) :
    w.settle .connectAndHandshake (.ok { type := .helloAck, payload := encodeHelloAck ack }) =
      ({ w with epoch := ack.epoch, handshaken := true, fenced := false }, .status (.ok ())) := by
  simp [settle, reply, handshakeReply]

/-- The worker behind the answer to a decision: a rejection for its epoch or its boot fences
it. -/
def acknowledged (ack : MessageDecisionAck) : GovernorWorker :=
  if ¬ack.accepted ∧ (ack.reason = .epochMismatch ∨ ack.reason = .bootMismatch) then
    w.fence ack.currentEpoch
  else w

theorem settle_ack (decision : Decision) (ack : MessageDecisionAck) :
    w.settle (.publish decision)
        (.ok { type := .decisionAck, payload := encodeDecisionAck ack }) =
      (w.acknowledged ack, .ack (.ok { ack with detail := MessageType.cut ack.detail })) := by
  simp [settle, reply, publishReply, acknowledged]

theorem settle_heartbeat (advance : MessageEpochAdvance) :
    w.settle .sendHeartbeat
        (.ok { type := .heartbeatAck, payload := encodeEpochAdvance advance }) =
      (if advance.epoch ≠ w.epoch then w.fence advance.epoch else w, .status (.ok ())) := by
  simp [settle, reply, heartbeatReply]

/-- An error frame fails every call and leaves the worker as it was. -/
theorem settle_error (call : Call) (error : Error) :
    (w.settle call (.ok (Coordinator.errorFrame error))).1 = w ∧
      (w.settle call (.ok (Coordinator.errorFrame error))).2.failed = true := by
  cases call <;>
    simp [settle, reply, handshakeReply, leaseReply, renewReply, grantReply, publishReply,
      heartbeatReply, Coordinator.errorFrame, Answer.failed, fail]

end GovernorWorker

end IncastGovernor
