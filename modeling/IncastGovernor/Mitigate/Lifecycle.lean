import IncastGovernor.Mitigate.Intent

/-! The lifecycle of an intervention: its states and legal transitions, the fence that
ends authority created under another binding, and the recovery criteria. -/

namespace IncastGovernor

inductive InterventionState where
  | proposed | authorized | active | relaxing | revalidating | retired | fenced | refused | expired
  deriving DecidableEq

namespace InterventionState

def toText : InterventionState → Text
  | .proposed => ascii "Proposed"
  | .authorized => ascii "Authorized"
  | .active => ascii "Active"
  | .relaxing => ascii "Relaxing"
  | .revalidating => ascii "Revalidating"
  | .retired => ascii "Retired"
  | .fenced => ascii "Fenced"
  | .refused => ascii "Refused"
  | .expired => ascii "Expired"

/-- `is_terminal_state`. -/
def terminal (state : InterventionState) : Prop :=
  state = .retired ∨ state = .fenced ∨ state = .refused ∨ state = .expired

instance (state : InterventionState) : Decidable state.terminal := by
  delta terminal; infer_instance

/-- `is_live_state`. -/
def live (state : InterventionState) : Prop :=
  state = .authorized ∨ state = .active ∨ state = .relaxing ∨ state = .revalidating

instance (state : InterventionState) : Decidable state.live := by
  delta live; infer_instance

end InterventionState

structure Intervention where
  id : InterventionId := {}
  generation : InterventionGeneration := {}
  destination : DestinationId := {}
  destinationGeneration : DestinationGeneration := {}
  window : WindowId := {}
  windowGeneration : WindowGeneration := {}
  state : InterventionState := .proposed
  intent : MitigationIntent := {}
  epoch : EpochId := {}
  boot : BootIncarnation := {}
  worker : WorkerId := {}
  lease : LeaseId := {}
  policy : PolicyId := {}
  policyGeneration : PolicyGeneration := {}
  createdAt : Timestamp := {}
  updatedAt : Timestamp := {}
  expiresAt : Timestamp := {}
  lastRelaxedAt : Timestamp := {}
  appliedReductionBp : BasisPoints := {}
  relaxSteps : UInt32 := 0
  continueSteps : UInt32 := 0
  refusal : RefusalReason := .none
  refusalDetail : Text := []
  deriving DecidableEq

namespace Intervention

def live (intervention : Intervention) : Prop := intervention.state.live

instance (intervention : Intervention) : Decidable intervention.live :=
  inferInstanceAs (Decidable intervention.state.live)

end Intervention

/-- `is_legal_transition`: the table of legal moves. -/
def isLegalTransition (source target : InterventionState) : Prop :=
  source = target ∨
    match source with
    | .proposed => target = .authorized ∨ target = .refused ∨ target = .fenced
    | .authorized =>
      target = .active ∨ target = .fenced ∨ target = .expired ∨ target = .retired ∨
        target = .revalidating
    | .active =>
      target = .relaxing ∨ target = .fenced ∨ target = .expired ∨ target = .retired ∨
        target = .revalidating
    | .relaxing =>
      target = .active ∨ target = .retired ∨ target = .fenced ∨ target = .expired ∨
        target = .revalidating
    | .revalidating =>
      target = .active ∨ target = .retired ∨ target = .fenced ∨ target = .refused ∨
        target = .expired
    | .retired => target = .revalidating
    | .fenced | .refused | .expired => False

instance (source target : InterventionState) : Decidable (isLegalTransition source target) := by
  unfold isLegalTransition
  cases source <;> simp only <;> infer_instance

/-- `transition`: a move outside the table is an error and changes nothing. -/
def transition (intervention : Intervention) (target : InterventionState) (now : Timestamp)
    (detail : Text) : Outcome Intervention :=
  if ¬isLegalTransition intervention.state target then
    .error
      { code := .illegalTransition
        detail := ascii "illegal intervention transition: " ++ intervention.state.toText ++
          ascii " -> " ++ target.toText ++
          if detail ≠ [] then ascii " (" ++ detail ++ ascii ")" else [] }
  else
    .ok { intervention with
      state := target
      updatedAt := if now.valid then now else intervention.updatedAt
      relaxSteps := if target = .relaxing then intervention.relaxSteps + 1 else intervention.relaxSteps
      lastRelaxedAt := if target = .relaxing then now else intervention.lastRelaxedAt
      refusalDetail := if target = .refused then detail else intervention.refusalDetail }

/-- A transition whose status is dropped: the record as the call left it. -/
def tryTransition (intervention : Intervention) (target : InterventionState) (now : Timestamp)
    (detail : Text) : Intervention :=
  match transition intervention target now detail with
  | .ok moved => moved
  | .error _ => intervention

/-- What a transition never touches. -/
structure Intervention.SameRecord (a b : Intervention) : Prop where
  id : a.id = b.id
  generation : a.generation = b.generation
  intent : a.intent = b.intent
  epoch : a.epoch = b.epoch
  boot : a.boot = b.boot
  expiresAt : a.expiresAt = b.expiresAt
  appliedReductionBp : a.appliedReductionBp = b.appliedReductionBp

theorem transition_sameRecord {intervention moved : Intervention} {target : InterventionState}
    {now : Timestamp} {detail : Text} (h : transition intervention target now detail = .ok moved) :
    moved.SameRecord intervention ∧ moved.state = target := by
  unfold transition at h
  by_cases hl : isLegalTransition intervention.state target
  · rw [if_neg (not_not.mpr hl)] at h
    rw [← Except.ok.inj h]
    exact ⟨⟨rfl, rfl, rfl, rfl, rfl, rfl, rfl⟩, rfl⟩
  · rw [if_pos hl] at h
    contradiction

theorem tryTransition_sameRecord (intervention : Intervention) (target : InterventionState)
    (now : Timestamp) (detail : Text) :
    (tryTransition intervention target now detail).SameRecord intervention := by
  unfold tryTransition
  cases h : transition intervention target now detail with
  | ok moved => exact (transition_sameRecord h).1
  | error e => exact ⟨rfl, rfl, rfl, rfl, rfl, rfl, rfl⟩

/-! ### Fencing -/

structure FenceContext where
  epoch : EpochId := {}
  boot : BootIncarnation := {}
  worker : WorkerId := {}
  lease : LeaseId := {}
  now : Timestamp := {}
  leaseExpiry : Timestamp := {}

/-- `is_fenced`: the reason and the detail, or nothing. -/
def isFenced (intervention : Intervention) (context : FenceContext) : Option (RefusalReason × Text) :=
  if context.epoch.valid ∧ intervention.epoch ≠ context.epoch then
    some (.epochMismatch, ascii "intervention belongs to a superseded coordinator epoch")
  else if context.boot.valid ∧ intervention.boot ≠ context.boot then
    some (.bootMismatch, ascii "intervention belongs to a previous boot incarnation")
  else if context.worker.valid ∧ intervention.worker.valid ∧ intervention.worker ≠ context.worker then
    some (.epochMismatch, ascii "intervention belongs to a different worker")
  else if context.lease.valid ∧ intervention.lease.valid ∧ intervention.lease ≠ context.lease then
    some (.leaseMissing, ascii "intervention belongs to a superseded lease")
  else if context.leaseExpiry.valid ∧ context.now.valid ∧ context.now > context.leaseExpiry then
    some (.leaseExpired, ascii "intervention lease expired")
  else if intervention.expiresAt.valid ∧ context.now.valid ∧ context.now > intervention.expiresAt then
    some (.awaitingRecoveryPolicy,
      ascii "intervention reached its expiry boundary and requires revalidation")
  else none

/-- A record that is not fenced carries the context's epoch and boot and has not
passed its expiry. -/
theorem isFenced_eq_none {intervention : Intervention} {context : FenceContext}
    (h : isFenced intervention context = none) :
    (context.epoch.valid → intervention.epoch = context.epoch) ∧
      (context.boot.valid → intervention.boot = context.boot) ∧
      ¬(intervention.expiresAt.valid ∧ context.now.valid ∧ context.now > intervention.expiresAt) := by
  unfold isFenced at h
  split_ifs at h with h1 h2 h3 h4 h5 h6
  refine ⟨fun hv => ?_, fun hv => ?_, h6⟩
  · by_contra hne
    exact h1 ⟨hv, hne⟩
  · by_contra hne
    exact h2 ⟨hv, hne⟩

/-! ### Recovery -/

structure RecoveryTracker where
  tracking : Bool := false
  since : Timestamp := {}
  cleanWindows : UInt32 := 0
  incidentWindows : UInt32 := 0
  dropsDuringRecovery : UInt64 := 0
  capacityRevalidated : Bool := false
  deriving DecidableEq

structure RecoveryVerdict where
  relax : Bool := false
  reason : RefusalReason := .none
  detail : Text := []
  stepBp : BasisPoints := {}

/-- `evaluate_recovery`: whether an intervention may relax in this window. -/
def evaluateRecovery (policy : RecoveryPolicy) (tracker : RecoveryTracker) (metrics : FanInMetrics)
    (policyEnabled : Bool) : RecoveryVerdict :=
  if ¬policyEnabled then
    { reason := .policyDisabled, detail := ascii "recovery policy is disabled" }
  else if metrics.oversubscriptionBp.value > policy.relaxOversubscriptionBp then
    { reason := .noIncident
      detail := ascii "aggregate offered rate has not returned inside the recovery band" }
  else if metrics.queuePressureBp.value > policy.relaxQueuePressureBp then
    { reason := .noIncident
      detail := ascii "queue pressure has not returned inside the recovery band" }
  else if metrics.dropEvents > policy.maxDropsDuringRecovery then
    { reason := .noIncident, detail := ascii "queue drops are still being observed" }
  else if tracker.cleanWindows < policy.requiredCleanWindows then
    { reason := .noIncident, detail := ascii "clean-window dwell has not been satisfied" }
  else if policy.requireCapacityRevalidation ∧ ¬tracker.capacityRevalidated then
    { reason := .capacityNotRevalidated
      detail := ascii "destination capacity has not been revalidated" }
  else { relax := true, stepBp := BasisPoints.of 0, detail := ascii "recovery criteria satisfied" }

/-- The five criteria behind a verdict that relaxes. -/
theorem evaluateRecovery_relax {policy : RecoveryPolicy} {tracker : RecoveryTracker}
    {metrics : FanInMetrics} {policyEnabled : Bool} :
    (evaluateRecovery policy tracker metrics policyEnabled).relax = true ↔
      policyEnabled = true ∧
        metrics.oversubscriptionBp.value ≤ policy.relaxOversubscriptionBp ∧
        metrics.queuePressureBp.value ≤ policy.relaxQueuePressureBp ∧
        metrics.dropEvents ≤ policy.maxDropsDuringRecovery ∧
        policy.requiredCleanWindows ≤ tracker.cleanWindows ∧
        (policy.requireCapacityRevalidation = true → tracker.capacityRevalidated = true) := by
  unfold evaluateRecovery
  split_ifs with h1 h2 h3 h4 h5 h6
  · simp [UInt32.not_le.mpr h2]
  · simp [UInt32.not_le.mpr h3]
  · simp [UInt64.not_le.mpr h4]
  · simp [UInt32.not_le.mpr h5]
  · simp [h6.1, h6.2]
  · have h2' := UInt32.not_lt.mp h2
    have h3' := UInt32.not_lt.mp h3
    have h4' := UInt64.not_lt.mp h4
    have h5' := UInt32.not_lt.mp h5
    refine ⟨fun _ => ⟨h1, h2', h3', h4', h5', fun hr => ?_⟩, fun _ => rfl⟩
    by_contra hc
    exact h6 ⟨hr, hc⟩
  · simp [h1]

end IncastGovernor
