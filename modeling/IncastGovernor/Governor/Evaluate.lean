import IncastGovernor.Governor.State

/-! Evaluation of one bundle. The binding checks and the authority check refuse; an
accepted window is classified and counted, a live record of another binding is
fenced, and what is left is one effect on the table: a hold, an issue, a
continuation, a relaxation, a retirement or nothing. -/

namespace IncastGovernor

structure Governor where
  config : GovernorConfig := {}
  state : GovernorState := {}
  accepting : Bool := true

namespace Governor

/-- The constructor. -/
def create (config : GovernorConfig) : Governor :=
  { config
    state :=
      { destination := config.destination
        destinationGeneration := config.destinationGeneration
        policy := config.policy.id
        policyGeneration := config.policy.generation
        epoch := config.epoch
        boot := config.boot
        nextInterventionGeneration := ⟨1⟩
        requiresRevalidation := true } }

variable (g : Governor) (bundle : EvidenceBundle)

def instant : Timestamp := if bundle.now.valid then bundle.now else g.state.lastEvaluation

def draftDecision : Decision :=
  { decidedAt := g.instant bundle
    event := bundle.event
    eventGeneration := bundle.eventGeneration
    destination := bundle.destination
    destinationGeneration := bundle.destinationGeneration
    window := bundle.window
    windowGeneration := bundle.windowGeneration
    policy := g.config.policy.id
    policyGeneration := g.config.policy.generation
    epoch := g.config.epoch
    boot := g.config.boot
    worker := g.config.worker
    lease := g.config.lease }

/-- The refused exit: only the refusal count and the generation move. -/
def refuse (decision : Decision) (reason : RefusalReason) (detail : Text) : Decision × Governor :=
  let state := { g.state with
    refusalCount := g.state.refusalCount + 1
    generation := g.state.generation.next }
  let refused := { decision with
    outcome := .refused
    refusal := reason
    refusalDetail := detail
    kind := .unknown
    severity := .none
    authority := { decision.authority with
      refusal := reason, refusalDetail := detail, interventionAuthorized := false }
    stateGeneration := state.generation }
  ({ refused with
      explanation :=
        buildExplanation refused refused.contributions g.config.maxContributionsInDecision },
    { g with state := state })

/-! ### The checks before classification -/

/-- The binding checks in source order. -/
def bindingRefusal : Option (RefusalReason × Text) :=
  let config := g.config
  let now := g.instant bundle
  if ¬g.accepting then
    some (.policyDisabled, ascii "governor is shut down and no longer accepts work")
  else if ¬config.epoch.valid ∨ ¬config.boot.valid ∨ ¬config.lease.valid then
    some (.leaseMissing, ascii "governor holds no bound authority; bind_authority must be called first")
  else if ¬bundle.structurallyValid then
    some (.malformedBundle, ascii "evidence bundle failed structural validation")
  else if config.destination.valid ∧ bundle.destination ≠ config.destination then
    some (.destinationMismatch, ascii "evidence is bound to a different destination")
  else if g.state.destinationGeneration.valid ∧ bundle.destinationGeneration.valid ∧
      bundle.destinationGeneration < g.state.destinationGeneration then
    some (.staleEvidence, ascii "destination generation regressed")
  else if bundle.policyStamp.state = .contradictory then
    some (.policyGenerationMismatch, ascii "policy evidence is contradictory")
  else if config.epoch.valid ∧ (¬bundle.epoch.valid ∨ bundle.epoch ≠ config.epoch) then
    some (.epochMismatch, ascii "evidence epoch does not match the bound authority")
  else if config.boot.valid ∧ (¬bundle.boot.valid ∨ bundle.boot ≠ config.boot) then
    some (.bootMismatch, ascii "evidence boot incarnation does not match this incarnation")
  else if config.worker.valid ∧ bundle.worker.valid ∧ bundle.worker ≠ config.worker then
    some (.epochMismatch, ascii "evidence was produced by a different worker")
  else if config.lease.valid ∧ (¬bundle.lease.valid ∨ bundle.lease ≠ config.lease) then
    some (.leaseMissing, ascii "evidence lease does not match the bound lease")
  else if config.leaseExpiry.valid ∧ now.valid ∧ now > config.leaseExpiry then
    some (.leaseExpired, ascii "authority lease expired before this evaluation")
  else none

/-- Recorded sequences compare only with the incarnation that produced them. -/
def sameSourceIncarnation : Prop :=
  g.state.lastSequenceBoot.valid ∧ bundle.boot.valid ∧ g.state.lastSequenceBoot = bundle.boot

instance : Decidable (g.sameSourceIncarnation bundle) := by
  delta sameSourceIncarnation; infer_instance

def referenceSequences : PerClass UInt64 :=
  if g.sameSourceIncarnation bundle then g.state.lastSequence else noSequences

def authorityCheck : AuthorityCheck :=
  checkAuthority bundle g.config.policy (g.referenceSequences bundle)

/-- The decision with the bindings the check established. -/
def boundDecision : Decision :=
  let decision := g.draftDecision bundle
  { decision with authority := { decision.authority with
      classes := (g.authorityCheck bundle).classes
      policyEnabled := g.config.policy.enabled
      eventBound := decide (bundle.event.valid ∧ bundle.eventGeneration.valid)
      destinationBound := decide (bundle.destination.valid ∧ bundle.destinationGeneration.valid)
      windowBound := decide (bundle.window.valid ∧ bundle.windowGeneration.valid)
      epochBound := decide (bundle.epoch.valid ∧ bundle.epoch = g.config.epoch)
      bootBound := decide (bundle.boot.valid ∧ bundle.boot = g.config.boot)
      leaseBound := decide (bundle.lease.valid ∧ bundle.lease = g.config.lease)
      provenanceBound := decide
        (bundle.provenanceStamp.state = .present ∧ bundle.provenanceStamp.provenance.valid)
      recoveryPolicyPresent := g.config.policy.recovery.enabled } }

/-! ### Classification and accounting -/

/-- The state with the accepted sequences advanced. -/
def acceptEvidence : GovernorState :=
  let reference := g.referenceSequences bundle
  { g.state with
    lastSequenceBoot :=
      if g.sameSourceIncarnation bundle then g.state.lastSequenceBoot else bundle.boot
    lastSequence := PerClass.ofFn fun klass =>
      let sequence := (bundle.stampFor klass).sequence
      if sequence > reference.get klass then sequence else reference.get klass }

def liveView : Option LiveView := findLive g.state.interventions

def classificationContext : ClassificationContext :=
  { priorKind := (g.state.history.getLast?.map fun record => record.kind).getD .unknown
    incidentStreak := g.state.incidentStreak
    cleanStreak := g.state.cleanStreak }

/-- The classification of the window. With a live intervention a return to ordinary
traffic is a recovery, unless hysteresis holds the incident. -/
def windowClassification : Classification :=
  let classification := classify bundle g.config.policy (detectCollisions bundle)
    g.classificationContext
  if (g.liveView).isSome ∧ classification.authoritative ∧ ¬classification.hysteresisHeld ∧
      ¬classification.kind.incident then
    { classification with kind := .recovery }
  else classification

/-- The decision with the classification of its window. -/
def classifiedDecision : Decision :=
  let decision := g.boundDecision bundle
  let classification := g.windowClassification bundle
  { decision with
    kind := classification.kind
    severity := classification.severity
    metrics := classification.metrics
    synchronization := classification.synchronization
    contributions := classification.contributions.take g.config.maxContributionsInDecision
    authority := { decision.authority with
      populationSaturated := classification.metrics.populationSaturated
      identityCollisionPresent := decide (classification.metrics.collidedSenders > 0) } }

/-- The tracker of a clean window with a live intervention. -/
def trackedRecovery (cleanStreak : UInt32) : RecoveryTracker :=
  let tracker := g.state.recovery
  { tracker with
    tracking := true
    since := if tracker.since.valid then tracker.since else g.instant bundle
    cleanWindows := cleanStreak
    dropsDuringRecovery :=
      saturatingAdd tracker.dropsDuringRecovery (g.windowClassification bundle).metrics.dropEvents
    capacityRevalidated := decide (bundle.capacityStamp.state = .present) }

/-- The state after the streak accounting. -/
def countedState : GovernorState :=
  let state := g.acceptEvidence bundle
  let hysteresis := g.config.policy.hysteresis
  if (g.windowClassification bundle).instantaneousKind.incident then
    { state with
      incidentStreak := min (state.incidentStreak + 1) hysteresis.maxIncidentWindows
      cleanStreak := 0
      recovery := {} }
  else
    let cleanStreak := min (state.cleanStreak + 1) hysteresis.maxCleanWindows
    { state with
      cleanStreak := cleanStreak
      incidentStreak := 0
      recovery :=
        if (g.liveView).isSome then g.trackedRecovery bundle cleanStreak else state.recovery }

/-! ### Fencing -/

def fenceContext : FenceContext :=
  { epoch := g.config.epoch
    boot := g.config.boot
    worker := g.config.worker
    lease := g.config.lease
    now := g.instant bundle
    leaseExpiry := g.config.leaseExpiry }

/-- The fence the live record runs into. -/
def liveFence : Option (RefusalReason × Text) :=
  (g.liveView).bind fun view => isFenced view.live (g.fenceContext bundle)

def fencedRecord (now : Timestamp) (detail : Text) (live : Intervention) : Intervention :=
  match transition live .fenced live.updatedAt detail with
  | .ok moved => moved
  | .error _ => { live with state := .fenced, updatedAt := now }

/-- The fenced exit. The window is counted, not recorded. -/
def fence (view : LiveView) (reason : RefusalReason) (detail : Text) : Decision × Governor :=
  let now := g.instant bundle
  let record := fencedRecord now detail view.live
  let counted := g.countedState bundle
  let state := { counted with
    interventions := view.put record
    generation := counted.generation.next
    lastEvaluation := now
    evaluationCount := counted.evaluationCount + 1
    requiresRevalidation := true }
  let classified := g.classifiedDecision bundle
  let decision := { classified with
    outcome := .interventionFenced
    intervention := record.id
    interventionState := record.state
    refusal := reason
    refusalDetail := detail
    authority := { classified.authority with
      interventionAuthorized := false, refusal := reason, refusalDetail := detail }
    stateGeneration := state.generation }
  ({ decision with
      explanation :=
        buildExplanation decision decision.contributions g.config.maxContributionsInDecision },
    { g with state := state })

/-! ### The effect of a window -/

/-- The expiry boundary of a live record. The fence is checked first and covers it. -/
def expireRecord (now : Timestamp) (live : Intervention) : Intervention :=
  if live.expiresAt.valid ∧ now.valid ∧ now > live.expiresAt ∧ live.state ≠ .revalidating then
    match transition live .revalidating now (ascii "intervention reached its expiry boundary") with
    | .ok moved => moved
    | .error _ => { live with state := .revalidating }
  else live

/-- Hysteresis holds a live record at its magnitude while the classifier does not
trust the window. -/
def holds (classification : Classification) (live : Intervention) : Prop :=
  classification.hysteresisHeld ∧ classification.authoritative ∧ classification.kind.incident ∧
    (live.state = .active ∨ live.state = .relaxing)

instance (classification : Classification) (live : Intervention) :
    Decidable (holds classification live) := by
  delta holds; infer_instance

def heldRecord (now : Timestamp) (live : Intervention) : Intervention :=
  let expiry : Timestamp := ⟨now.nanos + live.intent.duration.nanos⟩
  { live with
    expiresAt := expiry
    intent := { live.intent with expiresAt := expiry }
    updatedAt := now
    continueSteps := live.continueSteps + 1 }

def createdRecord (policy : GovernorPolicy) (now : Timestamp) (intent : MitigationIntent) :
    Intervention :=
  let proposed : Intervention :=
    { id := intent.intervention
      generation := intent.generation
      destination := bundle.destination
      destinationGeneration := bundle.destinationGeneration
      window := bundle.window
      windowGeneration := bundle.windowGeneration
      epoch := bundle.epoch
      boot := bundle.boot
      worker := bundle.worker
      lease := bundle.lease
      policy := policy.id
      policyGeneration := policy.generation
      createdAt := now
      updatedAt := now
      expiresAt := intent.expiresAt
      appliedReductionBp := intent.reductionBp
      intent := intent
      state := .proposed }
  { tryTransition (tryTransition proposed .authorized now []) .active now [] with state := .active }

/-- The move of a continued record: a revalidated one gets a new generation. -/
def reactivatedRecord (now : Timestamp) (live : Intervention) : Intervention :=
  if live.state = .revalidating then
    { tryTransition live .active now (ascii "revalidated") with
      state := .active, generation := live.generation.next }
  else if live.state = .relaxing then
    { tryTransition live .active now (ascii "re-escalated") with state := .active }
  else live

def continuedRecord (now : Timestamp) (intent : MitigationIntent) (live : Intervention) :
    Intervention :=
  let moved := reactivatedRecord now live
  { moved with
    intent := { intent with generation := moved.generation }
    appliedReductionBp := intent.reductionBp
    expiresAt := intent.expiresAt
    updatedAt := now
    continueSteps := moved.continueSteps + 1 }

def recoveredRecord (now : Timestamp) (intent : MitigationIntent) (live : Intervention) :
    Intervention :=
  let relaxing : Intervention :=
    { tryTransition live .relaxing now (ascii "recovery retired") with state := .relaxing }
  { tryTransition relaxing .retired now (ascii "recovery complete") with
    state := .retired, updatedAt := now, intent := intent }

def relaxedRecord (now : Timestamp) (intent : MitigationIntent) (live : Intervention) :
    Intervention :=
  let moved : Intervention :=
    if live.state = .active then
      { tryTransition live .relaxing now (ascii "recovery step") with state := .relaxing }
    else live
  { moved with
    intent := intent
    appliedReductionBp := intent.reductionBp
    expiresAt := intent.expiresAt
    updatedAt := now }

def unfoundedRecord (now : Timestamp) (live : Intervention) : Intervention :=
  { tryTransition live .retired now (ascii "revalidation found no incident") with
    state := .retired, updatedAt := now }

/-- What a window does to the table. Each record is the one the decision names. -/
inductive Effect where
  | hold (record : Intervention)
  | issue (record : Intervention)
  | carryOn (record : Intervention)
  | recover (record : Intervention)
  | relax (record : Intervention)
  | retireUnfounded (record : Intervention)
  | noAction (live : Option Intervention)

def recoveryVerdict : RecoveryVerdict :=
  if (g.windowClassification bundle).kind = .recovery ∧ (g.liveView).isSome then
    evaluateRecovery g.config.policy.recovery (g.countedState bundle).recovery
      (g.windowClassification bundle).metrics g.config.policy.recovery.enabled
  else {}

/-- The live record past its expiry boundary. -/
def liveRecord : Option Intervention :=
  (g.liveView).map fun view => expireRecord (g.instant bundle) view.live

def synthesisRequest : SynthesisRequest :=
  let live := g.liveRecord bundle
  let next := g.state.nextInterventionGeneration
  { bundle := some bundle
    policy := some g.config.policy
    classification := some (g.windowClassification bundle)
    check := g.authorityCheck bundle
    issuedAt := g.instant bundle
    prior := live.map fun record => record.intent
    recoveryRelaxationPermitted := (g.recoveryVerdict bundle).relax
    recoveryStepBp := (g.recoveryVerdict bundle).stepBp
    intervention := (live.map fun record => record.id).getD ⟨next.value⟩
    generation := (live.map fun record => record.generation).getD next }

def synthesis : SynthesisResult := synthesize (g.synthesisRequest bundle)

/-- The effect of a window that is not held. -/
def synthesizedEffect : Effect :=
  let classification := g.windowClassification bundle
  let now := g.instant bundle
  let intent := (g.synthesis bundle).intent
  let authorized := (g.synthesis bundle).authority.interventionAuthorized
  if classification.kind.incident ∧ authorized ∧ intent.active then
    match g.liveRecord bundle with
    | none => .issue (createdRecord bundle g.config.policy now intent)
    | some live => .carryOn (continuedRecord now intent live)
  else
    match g.liveRecord bundle with
    | none => .noAction none
    | some live =>
      if classification.kind = .recovery then
        if authorized then
          if ¬intent.active then .recover (recoveredRecord now intent live)
          else .relax (relaxedRecord now intent live)
        else .noAction (some live)
      else if ¬classification.kind.incident ∧ classification.authoritative ∧
          live.state = .revalidating then
        .retireUnfounded (unfoundedRecord now live)
      else .noAction (some live)

def effect : Effect :=
  match g.liveRecord bundle with
  | some live =>
    if holds (g.windowClassification bundle) live then
      .hold (heldRecord (g.instant bundle) live)
    else g.synthesizedEffect bundle
  | none => g.synthesizedEffect bundle

/-- The decision of a synthesized window before its effect. -/
def synthesizedDecision : Decision :=
  let synthesis := g.synthesis bundle
  let decision := g.classifiedDecision bundle
  { decision with
    authority := { synthesis.authority with classes := (g.authorityCheck bundle).classes }
    intent := synthesis.intent }.addNotes g.config.maxNotes synthesis.notes

def heldDecision (record : Intervention) : Decision :=
  let decision := g.classifiedDecision bundle
  { decision with
    outcome := .interventionContinued
    intervention := record.id
    interventionState := record.state
    intent := record.intent
    authority := { decision.authority with
      interventionAuthorized := true
      refusal := .none
      refusalDetail := []
      classes := (g.authorityCheck bundle).classes
      recoveryPolicyPresent := g.config.policy.recovery.enabled }
    explanation := { decision.explanation with
      notes := decision.explanation.notes ++
        [ascii "de-escalation held by hysteresis: intervention magnitude is unchanged"] } }

/-- The decision an effect makes. -/
def effectDecision : Effect → Decision
  | .hold record => g.heldDecision bundle record
  | .issue record =>
    { g.synthesizedDecision bundle with
      outcome := .interventionIssued
      intervention := record.id, interventionState := record.state, intent := record.intent }
  | .carryOn record =>
    { g.synthesizedDecision bundle with
      outcome := .interventionContinued
      intervention := record.id, interventionState := record.state, intent := record.intent }
  | .recover record =>
    { g.synthesizedDecision bundle with
      outcome := .interventionRetired
      intervention := record.id, interventionState := record.state }
  | .relax record =>
    { g.synthesizedDecision bundle with
      outcome := .interventionRelaxed
      intervention := record.id, interventionState := record.state }
  | .retireUnfounded record =>
    { g.synthesizedDecision bundle with
      outcome := .interventionRetired
      refusal := (g.synthesis bundle).authority.refusal
      refusalDetail := (g.synthesis bundle).authority.refusalDetail
      intervention := record.id, interventionState := record.state }
  | .noAction live =>
    { g.synthesizedDecision bundle with
      outcome := .noAction
      refusal := (g.synthesis bundle).authority.refusal
      refusalDetail := (g.synthesis bundle).authority.refusalDetail
      intervention := (live.map fun record => record.id).getD {}
      interventionState := (live.map fun record => record.state).getD .retired }

/-- The table with the record at the live position replaced. -/
def putLive (record : Intervention) : List Intervention :=
  match g.liveView with
  | some view => view.put record
  | none => g.state.interventions

/-- The state an effect leaves, before the window is committed. -/
def effectState (effect : Effect) : GovernorState :=
  let counted := g.countedState bundle
  match effect with
  | .issue record =>
    { counted with
      interventions := counted.interventions ++ [record]
      nextInterventionGeneration := counted.nextInterventionGeneration.next
      interventionCount := counted.interventionCount + 1 }
  | .hold record | .carryOn record | .recover record | .relax record | .retireUnfounded record =>
    { counted with interventions := g.putLive record }
  | .noAction (some live) => { counted with interventions := g.putLive live }
  | .noAction none => counted

/-! ### The commit of a window -/

def windowRecord : WindowRecord :=
  let classification := g.windowClassification bundle
  { window := bundle.window
    windowGeneration := bundle.windowGeneration
    start := bundle.windowStart
    «end» := bundle.windowEnd
    kind := classification.kind
    severity := classification.severity
    oversubscriptionBp := classification.metrics.oversubscriptionBp
    queuePressureBp := classification.metrics.queuePressureBp
    activeSenders := classification.metrics.activeSenders
    authoritative := classification.authoritative }

/-- The state with the window recorded and its tables trimmed. -/
def commitState (state : GovernorState) : GovernorState :=
  { state with
    history := trimHistory g.config.maxHistory (state.history ++ [g.windowRecord bundle])
    destinationGeneration :=
      if bundle.destinationGeneration.valid ∧
          bundle.destinationGeneration > state.destinationGeneration then
        bundle.destinationGeneration
      else state.destinationGeneration
    lastEvaluation := g.instant bundle
    evaluationCount := state.evaluationCount + 1
    generation := state.generation.next
    requiresRevalidation :=
      decide (∃ intervention ∈ state.interventions, intervention.state = .revalidating)
    interventions := trimInterventions state.interventions }

/-- The committed exit. -/
def commit (effect : Effect) : Decision × Governor :=
  let state := g.commitState bundle (g.effectState bundle effect)
  let classification := g.windowClassification bundle
  let decision := { g.effectDecision bundle effect with stateGeneration := state.generation }.addNotes
    g.config.maxNotes classification.notes
  ({ decision with
      explanation := buildExplanation decision classification.contributions
        g.config.maxContributionsInDecision },
    { g with state := state })

/-- `evaluate_locked`. -/
def evaluate : Decision × Governor :=
  match g.bindingRefusal bundle with
  | some (reason, detail) => g.refuse (g.draftDecision bundle) reason detail
  | none =>
    let check := g.authorityCheck bundle
    if check.reason ≠ .none then g.refuse (g.boundDecision bundle) check.reason check.detail
    else
      match g.liveView, g.liveFence bundle with
      | some view, some (reason, detail) => g.fence bundle view reason detail
      | _, _ => g.commit bundle (g.effect bundle)

end Governor

end IncastGovernor
