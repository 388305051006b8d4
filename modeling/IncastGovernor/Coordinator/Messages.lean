import IncastGovernor.Governor.State

/-! The protocol messages between workers and the coordinator, and the control
requests of an operator, as the coordinator decodes them. -/

namespace IncastGovernor

structure MessageHello where
  worker : WorkerId := {}
  boot : BootIncarnation := {}
  name : Text := []

structure MessageHelloAck where
  session : UInt64 := 0
  epoch : EpochId := {}
  coordinatorBoot : BootIncarnation := {}

structure MessageLeaseRequest where
  worker : WorkerId := {}
  boot : BootIncarnation := {}
  destination : DestinationId := {}
  destinationGeneration : DestinationGeneration := {}
  policy : PolicyId := {}
  policyGeneration : PolicyGeneration := {}
  attempt : UInt64 := 1

structure MessageLeaseGrant where
  lease : LeaseId := {}
  destination : DestinationId := {}
  destinationGeneration : DestinationGeneration := {}
  epoch : EpochId := {}
  boot : BootIncarnation := {}
  worker : WorkerId := {}
  policy : PolicyId := {}
  policyGeneration : PolicyGeneration := {}
  grantedAt : Timestamp := {}
  expiresAt : Timestamp := {}
  attempt : UInt64 := 1
  deriving DecidableEq

structure MessageLeaseDenied where
  reason : RefusalReason := .epochMismatch
  detail : Text := []
  currentEpoch : EpochId := {}

structure MessageLeaseRenew where
  lease : LeaseId := {}
  epoch : EpochId := {}
  boot : BootIncarnation := {}
  worker : WorkerId := {}
  attempt : UInt64 := 1

structure MessageEpochAdvance where
  epoch : EpochId := {}
  reason : Text := []

structure MessageDecisionPublish where
  lease : LeaseId := {}
  epoch : EpochId := {}
  boot : BootIncarnation := {}
  worker : WorkerId := {}
  destination : DestinationId := {}
  window : WindowId := {}
  windowGeneration : WindowGeneration := {}
  kind : IncidentKind := .unknown
  severity : Severity := .none
  outcome : DecisionOutcome := .refused
  mitigation : MitigationKind := .none
  intervention : InterventionId := {}
  reductionBp : BasisPoints := {}
  stateGeneration : StateGeneration := {}
  decidedAt : Timestamp := {}
  sequence : UInt64 := 0

structure MessageDecisionAck where
  accepted : Bool := false
  reason : RefusalReason := .none
  detail : Text := []
  currentEpoch : EpochId := {}

/-- An error as it is sent. Its code is any value of the type that underlies the error
codes: the decoder admits every one. -/
structure MessageError where
  code : UInt16 := 0
  detail : Text := []

inductive ControlOpcode where
  | status | advanceEpoch | shutdown | revokeAll
  deriving DecidableEq

structure ControlRequest where
  opcode : ControlOpcode := .status
  token : Text := []
  argument : Text := []

structure ControlResponse where
  ok : Bool := false
  detail : Text := []
  epoch : EpochId := {}
  leaseCount : UInt64 := 0
  decisionsAccepted : UInt64 := 0
  decisionsRejected : UInt64 := 0

end IncastGovernor
