import IncastGovernor.Mitigate.Synthesize
import IncastGovernor.Mitigate.Lifecycle

/-! The governor's state, configuration and decision, the explanation of a decision,
and the view of an intervention table at its live record. -/

namespace IncastGovernor

/-- What a window leaves behind for hysteresis and dwell accounting. -/
structure WindowRecord where
  window : WindowId := {}
  windowGeneration : WindowGeneration := {}
  start : Timestamp := {}
  «end» : Timestamp := {}
  kind : IncidentKind := .unknown
  severity : Severity := .none
  oversubscriptionBp : BasisPoints := {}
  queuePressureBp : BasisPoints := {}
  activeSenders : UInt32 := 0
  authoritative : Bool := false
  deriving DecidableEq

structure GovernorState where
  generation : StateGeneration := {}
  destination : DestinationId := {}
  destinationGeneration : DestinationGeneration := {}
  boot : BootIncarnation := {}
  epoch : EpochId := {}
  policy : PolicyId := {}
  policyGeneration : PolicyGeneration := {}
  lastEvaluation : Timestamp := {}
  evaluationCount : UInt64 := 0
  refusalCount : UInt64 := 0
  interventionCount : UInt64 := 0
  incidentStreak : UInt32 := 0
  cleanStreak : UInt32 := 0
  recovery : RecoveryTracker := {}
  history : List WindowRecord := []
  interventions : List Intervention := []
  lastSequence : PerClass UInt64 := noSequences
  lastSequenceBoot : BootIncarnation := {}
  nextInterventionGeneration : InterventionGeneration := ⟨1⟩
  requiresRevalidation : Bool := true
  restoredFromDurable : Bool := false
  restoreCount : UInt32 := 0
  deriving DecidableEq

/-- `GovernorState::validate`; the first bad record in table order decides. -/
def GovernorState.validate (state : GovernorState) : Status := do
  if state.history.length > kMaxWindowHistory then
    fail .corruptState "restored history exceeds the supported bound"
  if state.interventions.length > kMaxInterventions then
    fail .corruptState "restored intervention table exceeds the supported bound"
  state.interventions.forM fun intervention => do
    if ¬intervention.id.valid then
      fail .corruptState "restored intervention has an absent identity"
    if ¬intervention.intent.bounded then
      fail .corruptState "restored intervention carries an unbounded intent"

inductive DecisionOutcome where
  | refused | noAction | interventionIssued | interventionContinued | interventionRelaxed
  | interventionRetired | interventionFenced
  deriving DecidableEq

def DecisionOutcome.toText : DecisionOutcome → Text
  | .refused => ascii "Refused"
  | .noAction => ascii "NoAction"
  | .interventionIssued => ascii "InterventionIssued"
  | .interventionContinued => ascii "InterventionContinued"
  | .interventionRelaxed => ascii "InterventionRelaxed"
  | .interventionRetired => ascii "InterventionRetired"
  | .interventionFenced => ascii "InterventionFenced"

structure Explanation where
  event : EventId := {}
  eventGeneration : EventGeneration := {}
  destination : DestinationId := {}
  window : WindowId := {}
  windowGeneration : WindowGeneration := {}
  epoch : EpochId := {}
  boot : BootIncarnation := {}
  worker : WorkerId := {}
  lease : LeaseId := {}
  policy : PolicyId := {}
  policyGeneration : PolicyGeneration := {}
  decidedAt : Timestamp := {}
  kind : IncidentKind := .unknown
  severity : Severity := .none
  authoritative : Bool := false
  refusal : RefusalReason := .none
  refusalDetail : Text := []
  metrics : FanInMetrics := {}
  synchronization : SynchronizationEvidence := {}
  affectedQueue : QueueId := {}
  affectedResource : ResourceId := {}
  queueOccupancy : Bytes := {}
  queueCapacity : Bytes := {}
  bufferHeadroom : Bytes := {}
  topContributors : List SenderContribution := []
  protectedExceptions : List Text := []
  notes : List Text := []
  authority : AuthorityVector := {}
  intent : MitigationIntent := {}
  headline : Text := []

structure Decision where
  outcome : DecisionOutcome := .refused
  event : EventId := {}
  eventGeneration : EventGeneration := {}
  destination : DestinationId := {}
  destinationGeneration : DestinationGeneration := {}
  window : WindowId := {}
  windowGeneration : WindowGeneration := {}
  policy : PolicyId := {}
  policyGeneration : PolicyGeneration := {}
  epoch : EpochId := {}
  boot : BootIncarnation := {}
  worker : WorkerId := {}
  lease : LeaseId := {}
  decidedAt : Timestamp := {}
  stateGeneration : StateGeneration := {}
  kind : IncidentKind := .unknown
  severity : Severity := .none
  refusal : RefusalReason := .none
  refusalDetail : Text := []
  metrics : FanInMetrics := {}
  synchronization : SynchronizationEvidence := {}
  contributions : List SenderContribution := []
  intervention : InterventionId := {}
  interventionState : InterventionState := .retired
  intent : MitigationIntent := {}
  authority : AuthorityVector := {}
  explanation : Explanation := {}

def Decision.authorized (decision : Decision) : Prop :=
  decision.authority.interventionAuthorized = true

instance (decision : Decision) : Decidable decision.authorized :=
  inferInstanceAs (Decidable (decision.authority.interventionAuthorized = true))

structure GovernorConfig where
  policy : GovernorPolicy := makeDefaultPolicy
  destination : DestinationId := {}
  destinationGeneration : DestinationGeneration := {}
  worker : WorkerId := {}
  lease : LeaseId := {}
  epoch : EpochId := {}
  boot : BootIncarnation := {}
  leaseExpiry : Timestamp := {}
  maxHistory : ℕ := 64
  maxContributionsInDecision : ℕ := 64
  maxNotes : ℕ := 32

/-! ### The explanation -/

def boolText (b : Bool) : Text := if b then ascii "true" else ascii "false"

/-- The exception line of a contributor that may not be penalized. -/
def protectedException (c : SenderContribution) : Text :=
  ascii "sender=" ++ formatU64 c.identity.sender.value ++
  ascii " incarnation=" ++ formatU64 c.identity.incarnation.value ++
  ascii " class=" ++ c.service.toText ++ ascii " reason=" ++
  if c.protectedObligation then ascii "protected-obligation" else ascii "identity-collision"

def headlineOf (decision : Decision) : Text :=
  (decision.kind.toText ++ ascii " severity=" ++ decision.severity.toText ++
    ascii " senders=" ++ formatU64 decision.metrics.activeSenders.toUInt64 ++
    ascii " offered_bps=" ++ formatU64 decision.metrics.aggregateOffered.bytesPerSecond ++
    ascii " capacity_bps=" ++ formatU64 decision.metrics.serviceRate.bytesPerSecond ++
    ascii " oversubscription_bp=" ++
      formatU64 decision.metrics.oversubscriptionBp.value.toUInt64 ++
    ascii " outcome=" ++ decision.outcome.toText ++
    ascii " mitigation=" ++ decision.intent.kind.toText ++
    ascii " reduction_bp=" ++ formatU64 decision.intent.reductionBp.value.toUInt64 ++
    ascii " authorized=" ++ boolText decision.authority.interventionAuthorized ++
    ascii " refusal=" ++ decision.authority.refusal.toText).take 512

/-- `build_explanation`. -/
def buildExplanation (decision : Decision) (allContributions : List SenderContribution)
    (maxContributors : ℕ) : Explanation :=
  let notes := decision.explanation.notes.take kMaxExplanationNotes
  let exceptions := (allContributions.filter fun c => c.protectedObligation || c.collided).map
    protectedException
  { event := decision.event
    eventGeneration := decision.eventGeneration
    destination := decision.destination
    window := decision.window
    windowGeneration := decision.windowGeneration
    epoch := decision.epoch
    boot := decision.boot
    worker := decision.worker
    lease := decision.lease
    policy := decision.policy
    policyGeneration := decision.policyGeneration
    decidedAt := decision.decidedAt
    kind := decision.kind
    severity := decision.severity
    authoritative := decide (decision.kind ≠ .unknown)
    refusal := decision.refusal
    refusalDetail := decision.refusalDetail
    metrics := decision.metrics
    synchronization := decision.synchronization
    affectedQueue := decision.intent.queue
    affectedResource := decision.intent.resource
    queueOccupancy := decision.metrics.queueOccupancy
    queueCapacity := decision.metrics.queueCapacity
    bufferHeadroom := decision.metrics.bufferHeadroom
    topContributors := decision.contributions.take maxContributors
    protectedExceptions := exceptions.take kMaxExplanationNotes
    notes :=
      if notes = [] ∧ decision.kind = .unknown then
        [ascii "classification is UNKNOWN: " ++ decision.refusal.toText]
      else notes
    authority := decision.authority
    intent := decision.intent
    headline := headlineOf decision }

/-- Notes are appended up to the configured number. -/
def Decision.addNotes (decision : Decision) (maxNotes : ℕ) (notes : List Text) : Decision :=
  let kept := decision.explanation.notes
  { decision with explanation := { decision.explanation with
      notes := kept ++ notes.take (maxNotes - kept.length) } }

/-! ### The live record of a table -/

/-- A table split at its first live record. -/
structure LiveView where
  before : List Intervention
  live : Intervention
  after : List Intervention
  deriving DecidableEq

namespace LiveView

/-- The table with the record at the live position replaced. -/
def put (view : LiveView) (intervention : Intervention) : List Intervention :=
  view.before ++ intervention :: view.after

@[simp] theorem put_length (view : LiveView) (intervention : Intervention) :
    (view.put intervention).length = view.before.length + view.after.length + 1 := by
  simp [put]
  omega

theorem mem_put (view : LiveView) (intervention : Intervention) :
    intervention ∈ view.put intervention := by
  simp [put]

end LiveView

/-- `find_live`. -/
def findLive : List Intervention → Option LiveView
  | [] => none
  | intervention :: rest =>
    if intervention.live then some ⟨[], intervention, rest⟩
    else (findLive rest).map fun view => { view with before := intervention :: view.before }

/-- What a found view says about the table it splits. -/
structure LiveView.Splits (view : LiveView) (table : List Intervention) : Prop where
  table : table = view.put view.live
  live : view.live.live
  dead : ∀ intervention ∈ view.before, ¬intervention.live

theorem findLive_eq_some {table : List Intervention} {view : LiveView}
    (h : findLive table = some view) : view.Splits table := by
  induction table generalizing view with
  | nil => simp [findLive] at h
  | cons intervention rest ih =>
    unfold findLive at h
    by_cases hl : intervention.live
    · rw [if_pos hl] at h
      rw [← Option.some.inj h]
      exact ⟨rfl, hl, by simp⟩
    · rw [if_neg hl, Option.map_eq_some_iff] at h
      obtain ⟨inner, hinner, rfl⟩ := h
      have hi := ih hinner
      refine ⟨?_, hi.live, ?_⟩
      · show intervention :: rest = intervention :: inner.put inner.live
        rw [← hi.table]
      · intro other ho
        rcases List.mem_cons.mp ho with rfl | ho
        · exact hl
        · exact hi.dead other ho

theorem findLive_eq_none {table : List Intervention} :
    findLive table = none ↔ ∀ intervention ∈ table, ¬intervention.live := by
  induction table with
  | nil => simp [findLive]
  | cons intervention rest ih =>
    unfold findLive
    by_cases hl : intervention.live
    · simp [hl]
    · simp [hl, ih]

/-! ### Bounded tables -/

/-- The last `bound` records. -/
def keepLast {α : Type} (bound : ℕ) (xs : List α) : List α := xs.drop (xs.length - bound)

/-- `trim_history`. -/
def trimHistory (maxHistory : ℕ) (history : List WindowRecord) : List WindowRecord :=
  if maxHistory = 0 then [] else keepLast kMaxWindowHistory (keepLast maxHistory history)

/-- `trim_interventions`: the live records, then the newest of the others while there
is room. -/
def trimInterventions (table : List Intervention) : List Intervention :=
  if table.length ≤ kMaxInterventions then table
  else
    let live := table.filter fun intervention => intervention.live
    let terminal := table.reverse.filter fun intervention => ¬intervention.live
    live ++ terminal.take (kMaxInterventions - live.length)

theorem trimInterventions_of_length_le {table : List Intervention}
    (h : table.length ≤ kMaxInterventions) : trimInterventions table = table := if_pos h

theorem trimInterventions_subset (table : List Intervention) : trimInterventions table ⊆ table := by
  unfold trimInterventions
  split
  · exact List.Subset.refl _
  · intro intervention h
    rcases List.mem_append.mp h with h | h
    · exact (List.mem_filter.mp h).1
    · exact List.mem_reverse.mp (List.mem_filter.mp (List.take_subset _ _ h)).1

theorem mem_trimInterventions_of_live {table : List Intervention} {intervention : Intervention}
    (h : intervention ∈ table) (hl : intervention.live) : intervention ∈ trimInterventions table := by
  unfold trimInterventions
  split
  · exact h
  · exact List.mem_append_left _ (List.mem_filter.mpr ⟨h, decide_eq_true hl⟩)

end IncastGovernor
