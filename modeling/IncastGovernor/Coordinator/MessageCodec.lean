import IncastGovernor.Coordinator.Messages
import IncastGovernor.Durable.StateCodec

/-! The codecs of the twelve protocol messages. Every decoder reads back what its encoder
wrote, with the strings cut at the writer's cap, except that the argument of a control request
and the detail of a control response are read under half that cap. -/

namespace IncastGovernor

open Codec

/-! ### Codes of the enumerators -/

def DecisionOutcome.all : List DecisionOutcome :=
  [.refused, .noAction, .interventionIssued, .interventionContinued, .interventionRelaxed,
    .interventionRetired, .interventionFenced]

theorem DecisionOutcome.mem_all (outcome : DecisionOutcome) : outcome ∈ DecisionOutcome.all := by
  cases outcome <;> decide

/-- The opcodes count from one. -/
def ControlOpcode.value : ControlOpcode → UInt32
  | .status => 1
  | .advanceEpoch => 2
  | .shutdown => 3
  | .revokeAll => 4

def ControlOpcode.ofValue (value : UInt32) : Option ControlOpcode :=
  if value = 1 then some .status
  else if value = 2 then some .advanceEpoch
  else if value = 3 then some .shutdown
  else if value = 4 then some .revokeAll
  else none

def readOpcode : Reader ControlOpcode := do
  match ControlOpcode.ofValue (← readU32) with
  | some opcode => return opcode
  | none => fail .protocolViolation "control opcode is outside the known set"

/-! ### Encoders and decoders -/

def encodeHello (message : MessageHello) : Text :=
  [writeU64 message.worker.value,
    writeU64 message.boot.value,
    writeStr message.name].flatten

def decodeHello : Text → Outcome MessageHello :=
  decodeWith do
    let worker ← readU64
    let boot ← readU64
    let name ← readStr (kMaxIdentifierChars * 8)
    readEnd "trailing bytes in Hello"
    return { worker := ⟨worker⟩, boot := ⟨boot⟩, name }

def encodeHelloAck (message : MessageHelloAck) : Text :=
  [writeU64 message.session,
    writeU64 message.epoch.value,
    writeU64 message.coordinatorBoot.value].flatten

def decodeHelloAck : Text → Outcome MessageHelloAck :=
  decodeWith do
    let session ← readU64
    let epoch ← readU64
    let boot ← readU64
    readEnd "trailing bytes in HelloAck"
    return { session, epoch := ⟨epoch⟩, coordinatorBoot := ⟨boot⟩ }

def encodeLeaseRequest (message : MessageLeaseRequest) : Text :=
  [writeU64 message.worker.value,
    writeU64 message.boot.value,
    writeU64 message.destination.value,
    writeU64 message.destinationGeneration.value,
    writeU64 message.policy.value,
    writeU64 message.policyGeneration.value,
    writeU64 message.attempt].flatten

def decodeLeaseRequest : Text → Outcome MessageLeaseRequest :=
  decodeWith do
    let worker ← readU64
    let boot ← readU64
    let destination ← readU64
    let destinationGeneration ← readU64
    let policy ← readU64
    let policyGeneration ← readU64
    let attempt ← readU64
    readEnd "trailing bytes in LeaseRequest"
    return {
      worker := ⟨worker⟩
      boot := ⟨boot⟩
      destination := ⟨destination⟩
      destinationGeneration := ⟨destinationGeneration⟩
      policy := ⟨policy⟩
      policyGeneration := ⟨policyGeneration⟩
      attempt }

def encodeLeaseGrant (message : MessageLeaseGrant) : Text :=
  [writeU64 message.lease.value,
    writeU64 message.destination.value,
    writeU64 message.destinationGeneration.value,
    writeU64 message.epoch.value,
    writeU64 message.boot.value,
    writeU64 message.worker.value,
    writeU64 message.policy.value,
    writeU64 message.policyGeneration.value,
    writeI64 message.grantedAt.nanos,
    writeI64 message.expiresAt.nanos,
    writeU64 message.attempt].flatten

def decodeLeaseGrant : Text → Outcome MessageLeaseGrant :=
  decodeWith do
    let lease ← readU64
    let destination ← readU64
    let destinationGeneration ← readU64
    let epoch ← readU64
    let boot ← readU64
    let worker ← readU64
    let policy ← readU64
    let policyGeneration ← readU64
    let granted ← readI64
    let expires ← readI64
    let attempt ← readU64
    readEnd "trailing bytes in LeaseGrant"
    return {
      lease := ⟨lease⟩
      destination := ⟨destination⟩
      destinationGeneration := ⟨destinationGeneration⟩
      epoch := ⟨epoch⟩
      boot := ⟨boot⟩
      worker := ⟨worker⟩
      policy := ⟨policy⟩
      policyGeneration := ⟨policyGeneration⟩
      grantedAt := ⟨granted⟩
      expiresAt := ⟨expires⟩
      attempt }

def encodeLeaseDenied (message : MessageLeaseDenied) : Text :=
  [writeEnum RefusalReason.all message.reason,
    writeStr message.detail,
    writeU64 message.currentEpoch.value].flatten

def decodeLeaseDenied : Text → Outcome MessageLeaseDenied :=
  decodeWith do
    let reason ← readEnumOr .protocolViolation RefusalReason.all
      "lease denial carries an unknown refusal reason"
    let detail ← readStr (kMaxIdentifierChars * 8)
    let epoch ← readU64
    readEnd "trailing bytes in LeaseDenied"
    return { reason, detail, currentEpoch := ⟨epoch⟩ }

def encodeLeaseRenew (message : MessageLeaseRenew) : Text :=
  [writeU64 message.lease.value,
    writeU64 message.epoch.value,
    writeU64 message.boot.value,
    writeU64 message.worker.value,
    writeU64 message.attempt].flatten

def decodeLeaseRenew : Text → Outcome MessageLeaseRenew :=
  decodeWith do
    let lease ← readU64
    let epoch ← readU64
    let boot ← readU64
    let worker ← readU64
    let attempt ← readU64
    readEnd "trailing bytes in LeaseRenew"
    return { lease := ⟨lease⟩, epoch := ⟨epoch⟩, boot := ⟨boot⟩, worker := ⟨worker⟩, attempt }

def encodeEpochAdvance (message : MessageEpochAdvance) : Text :=
  [writeU64 message.epoch.value,
    writeStr message.reason].flatten

def decodeEpochAdvance : Text → Outcome MessageEpochAdvance :=
  decodeWith do
    let epoch ← readU64
    let reason ← readStr (kMaxIdentifierChars * 8)
    readEnd "trailing bytes in EpochAdvance"
    return { epoch := ⟨epoch⟩, reason }

def encodeDecisionPublish (message : MessageDecisionPublish) : Text :=
  [writeU64 message.lease.value,
    writeU64 message.epoch.value,
    writeU64 message.boot.value,
    writeU64 message.worker.value,
    writeU64 message.destination.value,
    writeU64 message.window.value,
    writeU64 message.windowGeneration.value,
    writeEnum IncidentKind.all message.kind,
    writeEnum Severity.all message.severity,
    writeEnum DecisionOutcome.all message.outcome,
    writeEnum MitigationKind.all message.mitigation,
    writeU64 message.intervention.value,
    writeU32 message.reductionBp.value,
    writeU64 message.stateGeneration.value,
    writeI64 message.decidedAt.nanos,
    writeU64 message.sequence].flatten

def decodeDecisionPublish : Text → Outcome MessageDecisionPublish :=
  decodeWith do
    let lease ← readU64
    let epoch ← readU64
    let boot ← readU64
    let worker ← readU64
    let destination ← readU64
    let window ← readU64
    let windowGeneration ← readU64
    let kind ← readEnumOr .protocolViolation IncidentKind.all
      "publish carries an unknown incident kind"
    let severity ← readEnumOr .protocolViolation Severity.all
      "publish carries an unknown severity"
    let outcome ← readEnumOr .protocolViolation DecisionOutcome.all
      "publish carries an unknown decision outcome"
    let mitigation ← readEnumOr .protocolViolation MitigationKind.all
      "publish carries an unknown mitigation kind"
    let intervention ← readU64
    let reduction ← readU32
    let stateGeneration ← readU64
    let decided ← readI64
    let sequence ← readU64
    readEnd "trailing bytes in DecisionPublish"
    return {
      lease := ⟨lease⟩
      epoch := ⟨epoch⟩
      boot := ⟨boot⟩
      worker := ⟨worker⟩
      destination := ⟨destination⟩
      window := ⟨window⟩
      windowGeneration := ⟨windowGeneration⟩
      kind, severity, outcome, mitigation
      intervention := ⟨intervention⟩
      reductionBp := BasisPoints.of reduction
      stateGeneration := ⟨stateGeneration⟩
      decidedAt := ⟨decided⟩
      sequence }

def encodeDecisionAck (message : MessageDecisionAck) : Text :=
  [writeBool message.accepted,
    writeEnum RefusalReason.all message.reason,
    writeStr message.detail,
    writeU64 message.currentEpoch.value].flatten

def decodeDecisionAck : Text → Outcome MessageDecisionAck :=
  decodeWith do
    let accepted ← readBool
    let reason ← readEnumOr .protocolViolation RefusalReason.all
      "ack carries an unknown refusal reason"
    let detail ← readStr (kMaxIdentifierChars * 8)
    let epoch ← readU64
    readEnd "trailing bytes in DecisionAck"
    return { accepted, reason, detail, currentEpoch := ⟨epoch⟩ }

def encodeError (message : MessageError) : Text :=
  [writeU16 message.code,
    writeStr message.detail].flatten

def decodeError : Text → Outcome MessageError :=
  decodeWith do
    let code ← readU16
    let detail ← readStr (kMaxIdentifierChars * 8)
    readEnd "trailing bytes in Error"
    return { code, detail }

def encodeControlRequest (message : ControlRequest) : Text :=
  [writeU32 message.opcode.value,
    writeStr message.token,
    writeStr message.argument].flatten

def decodeControlRequest : Text → Outcome ControlRequest :=
  decodeWith do
    let opcode ← readOpcode
    let token ← readStr (kMaxIdentifierChars * 8)
    let argument ← readStr (kMaxIdentifierChars * 4)
    readEnd "trailing bytes in ControlRequest"
    return { opcode, token, argument }

def encodeControlResponse (message : ControlResponse) : Text :=
  [writeBool message.ok,
    writeStr message.detail,
    writeU64 message.epoch.value,
    writeU64 message.leaseCount,
    writeU64 message.decisionsAccepted,
    writeU64 message.decisionsRejected].flatten

def decodeControlResponse : Text → Outcome ControlResponse :=
  decodeWith do
    let ok ← readBool
    let detail ← readStr (kMaxIdentifierChars * 4)
    let epoch ← readU64
    let leases ← readU64
    let accepted ← readU64
    let rejected ← readU64
    readEnd "trailing bytes in ControlResponse"
    return {
      ok, detail
      epoch := ⟨epoch⟩
      leaseCount := leases
      decisionsAccepted := accepted
      decisionsRejected := rejected }

/-! ### The messages as a family -/

inductive MessageType where
  | hello | helloAck | leaseRequest | leaseGrant | leaseDenied | leaseRenew | epochAdvance
  | decisionPublish | decisionAck | error | controlRequest | controlResponse

namespace MessageType

/-- The messages of a type. -/
def Message : MessageType → Type
  | .hello => MessageHello
  | .helloAck => MessageHelloAck
  | .leaseRequest => MessageLeaseRequest
  | .leaseGrant => MessageLeaseGrant
  | .leaseDenied => MessageLeaseDenied
  | .leaseRenew => MessageLeaseRenew
  | .epochAdvance => MessageEpochAdvance
  | .decisionPublish => MessageDecisionPublish
  | .decisionAck => MessageDecisionAck
  | .error => MessageError
  | .controlRequest => ControlRequest
  | .controlResponse => ControlResponse

def encode : (type : MessageType) → type.Message → Text
  | .hello => encodeHello
  | .helloAck => encodeHelloAck
  | .leaseRequest => encodeLeaseRequest
  | .leaseGrant => encodeLeaseGrant
  | .leaseDenied => encodeLeaseDenied
  | .leaseRenew => encodeLeaseRenew
  | .epochAdvance => encodeEpochAdvance
  | .decisionPublish => encodeDecisionPublish
  | .decisionAck => encodeDecisionAck
  | .error => encodeError
  | .controlRequest => encodeControlRequest
  | .controlResponse => encodeControlResponse

def decode : (type : MessageType) → Text → Outcome type.Message
  | .hello => decodeHello
  | .helloAck => decodeHelloAck
  | .leaseRequest => decodeLeaseRequest
  | .leaseGrant => decodeLeaseGrant
  | .leaseDenied => decodeLeaseDenied
  | .leaseRenew => decodeLeaseRenew
  | .epochAdvance => decodeEpochAdvance
  | .decisionPublish => decodeDecisionPublish
  | .decisionAck => decodeDecisionAck
  | .error => decodeError
  | .controlRequest => decodeControlRequest
  | .controlResponse => decodeControlResponse

/-- A string as the writer keeps it. -/
def cut (text : Text) : Text := text.take (kMaxIdentifierChars * 8)

/-- A message as its bytes determine it: strings are cut at the writer's cap, and basis points
are kept by value. -/
def kept : (type : MessageType) → type.Message → type.Message
  | .hello, (message : MessageHello) => { message with name := cut message.name }
  | .leaseDenied, (message : MessageLeaseDenied) => { message with detail := cut message.detail }
  | .epochAdvance, (message : MessageEpochAdvance) => { message with reason := cut message.reason }
  | .decisionPublish, (message : MessageDecisionPublish) =>
    { message with reductionBp := { message.reductionBp with clamped := false } }
  | .decisionAck, (message : MessageDecisionAck) => { message with detail := cut message.detail }
  | .error, (message : MessageError) => { message with detail := cut message.detail }
  | .controlRequest, (message : ControlRequest) =>
    { message with token := cut message.token, argument := cut message.argument }
  | .controlResponse, (message : ControlResponse) => { message with detail := cut message.detail }
  | .helloAck, (message : MessageHelloAck) => message
  | .leaseRequest, (message : MessageLeaseRequest) => message
  | .leaseGrant, (message : MessageLeaseGrant) => message
  | .leaseRenew, (message : MessageLeaseRenew) => message

/-- The message holds a string that its decoder refuses at the length its encoder writes. -/
def oversized : (type : MessageType) → type.Message → Prop
  | .controlRequest, (message : ControlRequest) =>
    message.argument.length > kMaxIdentifierChars * 4
  | .controlResponse, (message : ControlResponse) =>
    message.detail.length > kMaxIdentifierChars * 4
  | _, _ => False

/-! ### Round trips -/

theorem readOpcode_writeU32 (opcode : ControlOpcode) (rest : Text) :
    readOpcode (writeU32 opcode.value ++ rest) = .ok (opcode, rest) := by
  unfold readOpcode
  rw [readU32_bind]
  cases opcode <;> rfl

theorem of_kept_value (bp : BasisPoints) :
    BasisPoints.of bp.value = { bp with clamped := false } := by
  unfold BasisPoints.of
  rw [dif_neg (UInt32.not_lt.mpr bp.value_le)]

/-- A reader that gives a value and leaves nothing decodes to it. -/
theorem decodeWith_of_ok {α : Type} {reader : Reader α} {bytes rest : Text} {a : α}
    (h : reader bytes = .ok (a, rest)) : decodeWith reader bytes = .ok a := by
  unfold decodeWith
  rw [h]
  rfl

theorem decodeWith_of_error {α : Type} {reader : Reader α} {bytes : Text} {error : Error}
    (h : reader bytes = .error error) : decodeWith reader bytes = .error error := by
  unfold decodeWith
  rw [h]
  rfl

/-- A message that is not oversized is decoded as it was kept. -/
theorem decode_encode {type : MessageType} {message : type.Message}
    (h : ¬type.oversized message) : type.decode (type.encode message) = .ok (type.kept message) := by
  cases type with
  | hello =>
    refine @decodeWith_of_ok _ _ _ [] _ ?_
    simp only [encode, encodeHello, List.flatten_cons, List.flatten_nil, readU64_bind,
      readStr_bind, readEnd_bind]
    rfl
  | helloAck =>
    show decodeHelloAck (encodeHelloAck message) = .ok message
    refine @decodeWith_of_ok _ _ _ [] _ ?_
    simp only [encodeHelloAck, List.flatten_cons, List.flatten_nil, readU64_bind,
      readEnd_bind]
    rfl
  | leaseRequest =>
    show decodeLeaseRequest (encodeLeaseRequest message) = .ok message
    refine @decodeWith_of_ok _ _ _ [] _ ?_
    simp only [encodeLeaseRequest, List.flatten_cons, List.flatten_nil, readU64_bind,
      readEnd_bind]
    rfl
  | leaseGrant =>
    show decodeLeaseGrant (encodeLeaseGrant message) = .ok message
    refine @decodeWith_of_ok _ _ _ [] _ ?_
    simp only [encodeLeaseGrant, List.flatten_cons, List.flatten_nil, readU64_bind,
      readI64_bind, readEnd_bind]
    rfl
  | leaseDenied =>
    refine @decodeWith_of_ok _ _ _ [] _ ?_
    simp only [encode, encodeLeaseDenied, List.flatten_cons, List.flatten_nil]
    rw [bind_of_ok (readEnumOr_writeEnum (RefusalReason.mem_all _) (by decide) _ _ _)]
    simp only [readStr_bind, readU64_bind, readEnd_bind]
    rfl
  | leaseRenew =>
    show decodeLeaseRenew (encodeLeaseRenew message) = .ok message
    refine @decodeWith_of_ok _ _ _ [] _ ?_
    simp only [encodeLeaseRenew, List.flatten_cons, List.flatten_nil, readU64_bind,
      readEnd_bind]
    rfl
  | epochAdvance =>
    refine @decodeWith_of_ok _ _ _ [] _ ?_
    simp only [encode, encodeEpochAdvance, List.flatten_cons, List.flatten_nil, readU64_bind,
      readStr_bind, readEnd_bind]
    rfl
  | decisionPublish =>
    refine @decodeWith_of_ok _ _ _ [] _ ?_
    simp only [encode, encodeDecisionPublish, List.flatten_cons, List.flatten_nil, readU64_bind]
    rw [bind_of_ok (readEnumOr_writeEnum (IncidentKind.mem_all _) (by decide) _ _ _),
      bind_of_ok (readEnumOr_writeEnum (Severity.mem_all _) (by decide) _ _ _),
      bind_of_ok (readEnumOr_writeEnum (DecisionOutcome.mem_all _) (by decide) _ _ _),
      bind_of_ok (readEnumOr_writeEnum (MitigationKind.mem_all _) (by decide) _ _ _)]
    simp only [readU64_bind, readU32_bind, readI64_bind, readEnd_bind, of_kept_value]
    rfl
  | decisionAck =>
    refine @decodeWith_of_ok _ _ _ [] _ ?_
    simp only [encode, encodeDecisionAck, List.flatten_cons, List.flatten_nil, readBool_bind]
    rw [bind_of_ok (readEnumOr_writeEnum (RefusalReason.mem_all _) (by decide) _ _ _)]
    simp only [readStr_bind, readU64_bind, readEnd_bind]
    rfl
  | error =>
    refine @decodeWith_of_ok _ _ _ [] _ ?_
    simp only [encode, encodeError, List.flatten_cons, List.flatten_nil, readU16_bind,
      readStr_bind, readEnd_bind]
    rfl
  | controlRequest =>
    refine @decodeWith_of_ok _ _ _ [] _ ?_
    simp only [encode, encodeControlRequest, List.flatten_cons, List.flatten_nil]
    rw [bind_of_ok (readOpcode_writeU32 _ _), readStr_bind,
      bind_of_ok (readStr_capped ((List.length_take_le' _ _).trans (Nat.not_lt.mp h)) _)]
    rfl
  | controlResponse =>
    refine @decodeWith_of_ok _ _ _ [] _ ?_
    simp only [encode, encodeControlResponse, List.flatten_cons, List.flatten_nil, readBool_bind]
    rw [bind_of_ok (readStr_capped ((List.length_take_le' _ _).trans (Nat.not_lt.mp h)) _)]
    simp only [readU64_bind, readEnd_bind]
    rfl

/-- An oversized message is refused by its decoder. -/
theorem decode_oversized {type : MessageType} {message : type.Message}
    (h : type.oversized message) : type.decode (type.encode message) =
      fail .oversizedInput "string exceeds the declared bound" := by
  have hcut : ∀ text : Text, text.length > kMaxIdentifierChars * 4 →
      kMaxIdentifierChars * 4 < (text.take (kMaxIdentifierChars * 8)).length := by
    intro text hlong
    rw [List.length_take]
    exact Nat.lt_min.mpr ⟨by decide, hlong⟩
  cases type with
  | controlRequest =>
    refine decodeWith_of_error ?_
    simp only [encode, encodeControlRequest, List.flatten_cons, List.flatten_nil]
    rw [bind_of_ok (readOpcode_writeU32 _ _), readStr_bind]
    show (readStr (kMaxIdentifierChars * 4) _ >>= _) = _
    rw [readStr_oversized (hcut _ h)]
    rfl
  | controlResponse =>
    refine decodeWith_of_error ?_
    simp only [encode, encodeControlResponse, List.flatten_cons, List.flatten_nil, readBool_bind]
    show (readStr (kMaxIdentifierChars * 4) _ >>= _) = _
    rw [readStr_oversized (hcut _ h)]
    rfl
  | _ => exact h.elim

/-- A message of any type is decoded as it was kept exactly when it is not oversized. -/
theorem decode_encode_iff (type : MessageType) (message : type.Message) :
    type.decode (type.encode message) = .ok (type.kept message) ↔ ¬type.oversized message := by
  constructor
  · intro h hlong
    rw [decode_oversized hlong] at h
    cases h
  · exact decode_encode

/-- An operator's request for an epoch advance, with an argument of 385 bytes. -/
def longRequest : ControlRequest :=
  { opcode := .advanceEpoch, argument := List.replicate 385 0x61 }

/-- A control request that the encoder writes whole is refused by its decoder. -/
theorem long_request_not_decoded :
    ¬∀ (type : MessageType) (message : type.Message),
      type.decode (type.encode message) = .ok (type.kept message) := by
  intro h
  have hlong : MessageType.controlRequest.oversized longRequest := by
    show longRequest.argument.length > kMaxIdentifierChars * 4
    decide +kernel
  have hread := h .controlRequest longRequest
  rw [decode_oversized hlong] at hread
  cases hread

end MessageType

end IncastGovernor
