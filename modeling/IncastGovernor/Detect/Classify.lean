import IncastGovernor.Detect.Authority
import IncastGovernor.Detect.Metrics

/-! Classification of one window: the instantaneous kind of the metrics, the severity,
the ranked contributions, and the hysteresis that holds a de-escalation until the
clean streak has dwelled. -/

namespace IncastGovernor

inductive IncidentKind where
  | unknown | noFanIn | ordinaryManyToOne | synchronizedIncastRisk | activeIncast | recovery
  deriving DecidableEq

namespace IncidentKind

def toText : IncidentKind → Text
  | .unknown => ascii "Unknown"
  | .noFanIn => ascii "NoFanIn"
  | .ordinaryManyToOne => ascii "OrdinaryManyToOne"
  | .synchronizedIncastRisk => ascii "SynchronizedIncastRisk"
  | .activeIncast => ascii "ActiveIncast"
  | .recovery => ascii "Recovery"

/-- `kind_rank`. -/
def rank : IncidentKind → ℤ
  | .unknown => -1
  | .noFanIn => 0
  | .ordinaryManyToOne => 1
  | .recovery => 2
  | .synchronizedIncastRisk => 3
  | .activeIncast => 4

/-- `is_incident_kind`. -/
def incident (kind : IncidentKind) : Prop :=
  kind = .synchronizedIncastRisk ∨ kind = .activeIncast

instance (kind : IncidentKind) : Decidable kind.incident :=
  inferInstanceAs (Decidable (kind = .synchronizedIncastRisk ∨ kind = .activeIncast))

end IncidentKind

inductive Severity where
  | none | advisory | elevated | severe | critical
  deriving DecidableEq

def Severity.toText : Severity → Text
  | .none => ascii "None"
  | .advisory => ascii "Advisory"
  | .elevated => ascii "Elevated"
  | .severe => ascii "Severe"
  | .critical => ascii "Critical"

def classifyInstantaneous (metrics : FanInMetrics) (synchronization : SynchronizationEvidence)
    (policy : GovernorPolicy) : IncidentKind :=
  let pressure := policy.pressure
  if ¬synchronization.evaluated then .unknown
  else if metrics.activeSenders < policy.synchronization.manyToOneMinSenders then .noFanIn
  else if ¬synchronization.synchronized then .ordinaryManyToOne
  else if metrics.oversubscriptionBp.value ≥ pressure.collapseOversubscriptionBp ∨
      metrics.queuePressureBp.value ≥ pressure.activeQueuePressureBp ∨
      metrics.dropEvents ≥ pressure.dropEventsForActive then .activeIncast
  else if metrics.oversubscriptionBp.value ≥ pressure.riskOversubscriptionBp then
    .synchronizedIncastRisk
  else .ordinaryManyToOne

def deriveSeverity (kind : IncidentKind) (metrics : FanInMetrics) (policy : GovernorPolicy) :
    Severity :=
  let pressure := policy.pressure
  match kind with
  | .unknown | .noFanIn => .none
  | .ordinaryManyToOne | .recovery => .advisory
  | .synchronizedIncastRisk =>
    if metrics.oversubscriptionBp.value ≥ pressure.collapseOversubscriptionBp then .severe
    else .elevated
  | .activeIncast =>
    if metrics.dropEvents ≥ pressure.dropEventsForActive ∨
        metrics.oversubscriptionBp.value ≥ pressure.collapseOversubscriptionBp ∨
        metrics.queuePressureBp.value ≥ 9500 then .critical
    else .severe

/-! ### Contributions -/

structure SenderContribution where
  identity : SenderIdentity := {}
  service : ServiceClass := .bestEffort
  protectedObligation : Bool := false
  collided : Bool := false
  synchronized : Bool := false
  mitigable : Bool := false
  offeredRate : Rate := {}
  offeredShareBp : BasisPoints := {}
  aggregateShareBp : BasisPoints := {}
  arrivalOffset : Duration := {}
  disposition : Text := []
  deriving DecidableEq

/-- The key rows are collapsed by. It mixes the identity into 64 bits. -/
def identityKey (identity : SenderIdentity) : UInt64 :=
  identity.sender.value ^^^ (identity.incarnation.value * 0x9E3779B97F4A7C15) ^^^
    (identity.flow.value * 0xC2B2AE3D27D4EB4F)

/-- The rows whose key was not seen before. -/
def firstByKey : List UInt64 → List SenderObservation → List SenderObservation
  | _, [] => []
  | seen, sender :: rest =>
    if identityKey sender.identity ∈ seen then firstByKey seen rest
    else sender :: firstByKey (identityKey sender.identity :: seen) rest

/-- `Timestamp` of the end of the synchronized window; zero when no arrival is known. -/
def synchronizedLimit (metrics : FanInMetrics) (synchronization : SynchronizationEvidence) : Int64 :=
  if metrics.earliestArrival.valid then
    metrics.earliestArrival.nanos + synchronization.syncWindowBound.nanos
  else 0

def disposition (sender : SenderObservation) (isCollided isProtected isSynchronized : Bool) : Text :=
  if isCollided then ascii "identity-collision: excluded from penalization"
  else if isProtected then
    if sender.protectedObligation then ascii "protected-obligation: never penalized"
    else ascii "protected-class: above the mitigable class ceiling"
  else if ¬isSynchronized then ascii "outside the synchronized arrival window"
  else ascii "mitigable contributor"

def contributionOf (policy : GovernorPolicy) (metrics : FanInMetrics)
    (synchronization : SynchronizationEvidence) (collisions : List SenderCollision)
    (sender : SenderObservation) : SenderContribution :=
  let limit := synchronizedLimit metrics synchronization
  let earliest := metrics.earliestArrival
  let isProtected := decide (isProtectedSender sender policy)
  let isCollided := decide (sender.identity.sender ∈ collisions.map fun c => c.sender)
  let isSynchronized := synchronization.synchronized &&
    decide (limit ≠ 0 ∧ sender.firstArrival.valid ∧ sender.firstArrival.nanos ≤ limit ∧
      earliest.nanos ≤ sender.firstArrival.nanos)
  { identity := sender.identity
    service := sender.service
    protectedObligation := isProtected
    collided := isCollided
    synchronized := isSynchronized
    mitigable := isSynchronized && !isProtected && !isCollided
    offeredRate := sender.offeredRate
    offeredShareBp :=
      ratioBp sender.offeredRate.bytesPerSecond metrics.aggregateOffered.bytesPerSecond
    aggregateShareBp := ratioBp sender.offeredRate.bytesPerSecond metrics.serviceRate.bytesPerSecond
    arrivalOffset :=
      if sender.firstArrival.valid ∧ earliest.valid ∧ earliest ≤ sender.firstArrival then
        ⟨sender.firstArrival.nanos - earliest.nanos⟩
      else {}
    disposition := disposition sender isCollided isProtected isSynchronized }

/-- The ranking: higher rate first, then the smaller incarnation, flow and sender. -/
def SenderContribution.ranksBefore (a b : SenderContribution) : Prop :=
  if a.offeredRate ≠ b.offeredRate then
    a.offeredRate.bytesPerSecond > b.offeredRate.bytesPerSecond
  else if a.identity.incarnation ≠ b.identity.incarnation then
    a.identity.incarnation < b.identity.incarnation
  else if a.identity.flow ≠ b.identity.flow then a.identity.flow < b.identity.flow
  else a.identity.sender < b.identity.sender

instance (a b : SenderContribution) : Decidable (a.ranksBefore b) := by
  delta SenderContribution.ranksBefore; infer_instance

def rankContributions (bundle : EvidenceBundle) (policy : GovernorPolicy) (metrics : FanInMetrics)
    (synchronization : SynchronizationEvidence) (collisions : List SenderCollision) :
    List SenderContribution :=
  ((firstByKey [] (countedRows bundle)).map
    (contributionOf policy metrics synchronization collisions)).insertionSort
      fun a b => ¬b.ranksBefore a

/-! ### Classification -/

structure ClassificationContext where
  priorKind : IncidentKind := .unknown
  incidentStreak : UInt32 := 0
  cleanStreak : UInt32 := 0

structure Classification where
  kind : IncidentKind := .unknown
  instantaneousKind : IncidentKind := .unknown
  severity : Severity := .none
  authoritative : Bool := false
  hysteresisHeld : Bool := false
  refusal : RefusalReason := .missingEvidence
  refusalDetail : Text := []
  metrics : FanInMetrics := {}
  synchronization : SynchronizationEvidence := {}
  contributions : List SenderContribution := []
  notes : List Text := []

/-- The effective kind, whether hysteresis held it, and the note of a hold. -/
def applyHysteresis (policy : GovernorPolicy) (context : ClassificationContext)
    (instantaneous : IncidentKind) : IncidentKind × Bool × List Text :=
  let prior := context.priorKind
  if prior.rank > instantaneous.rank ∧ prior.rank > 0 then
    if ¬context.cleanStreak + 1 ≥ policy.hysteresis.minDwellWindows then
      (prior, true, [ascii "de-escalation held: minimum dwell not satisfied"])
    else if prior = .activeIncast ∧ instantaneous.rank < IncidentKind.recovery.rank then
      (.recovery, true, [ascii "de-escalation stepped down to Recovery"])
    else (instantaneous, false, [])
  else (instantaneous, false, [])

/-- The notes `classify` adds about the evidence itself. -/
def evidenceNotes (metrics : FanInMetrics) (synchronization : SynchronizationEvidence)
    (contributions : List SenderContribution) : List Text :=
  (if contributions ≠ [] then [synchronization.summary] else []) ++
  (if metrics.populationSaturated then
    [ascii "sender population saturated: counts and aggregate offer are lower bounds"] else []) ++
  (if metrics.collidedSenders > 0 then
    [ascii "identity collisions detected: affected senders are not penalized"] else []) ++
  if ¬metrics.protectedOffered.positive ∧ metrics.activeSenders > 0 then
    [ascii "no protected demand observed in this window"] else []

def classify (bundle : EvidenceBundle) (policy : GovernorPolicy) (collisions : List SenderCollision)
    (context : ClassificationContext) : Classification :=
  let metrics := computeMetrics bundle policy
  let synchronization := computeSynchronization bundle metrics policy
  let standalone := checkAuthority bundle policy noSequences
  if standalone.reason ≠ .none then
    { authoritative := false
      refusal := standalone.reason
      refusalDetail := standalone.detail
      metrics, synchronization
      notes := [ascii "evidence refused: " ++ standalone.reason.toText] }
  else
    let collisions := if collisions ≠ [] then collisions else metrics.collisions
    let metrics := { metrics with
      collisions := collisions
      collidedSenders := UInt32.ofNat collisions.length }
    let instantaneous := classifyInstantaneous metrics synchronization policy
    let (effective, held, notes) := applyHysteresis policy context instantaneous
    let contributions := rankContributions bundle policy metrics synchronization collisions
    { kind := effective
      instantaneousKind := instantaneous
      severity := deriveSeverity effective metrics policy
      authoritative := true
      hysteresisHeld := held
      refusal := .none
      metrics, synchronization, contributions
      notes := notes ++ evidenceNotes metrics synchronization contributions }

/-! ### The contributions -/

theorem firstByKey_sublist (seen : List UInt64) (rows : List SenderObservation) :
    (firstByKey seen rows).Sublist rows := by
  induction rows generalizing seen with
  | nil => exact List.Sublist.refl _
  | cons sender rest ih =>
    unfold firstByKey
    split
    · exact (ih seen).cons sender
    · exact (ih _).cons_cons sender

/-- Every contribution is the contribution of a counted row. -/
theorem exists_row_of_mem_rankContributions {bundle : EvidenceBundle} {policy : GovernorPolicy}
    {metrics : FanInMetrics} {synchronization : SynchronizationEvidence}
    {collisions : List SenderCollision} {c : SenderContribution}
    (h : c ∈ rankContributions bundle policy metrics synchronization collisions) :
    ∃ row ∈ countedRows bundle,
      c = contributionOf policy metrics synchronization collisions row := by
  unfold rankContributions at h
  rw [List.mem_insertionSort, List.mem_map] at h
  obtain ⟨row, hrow, rfl⟩ := h
  exact ⟨row, (firstByKey_sublist _ _).subset hrow, rfl⟩

theorem contributionOf_synchronized_iff {policy : GovernorPolicy} {metrics : FanInMetrics}
    {synchronization : SynchronizationEvidence} {collisions : List SenderCollision}
    {row : SenderObservation} :
    (contributionOf policy metrics synchronization collisions row).synchronized = true ↔
      synchronization.synchronized = true ∧ synchronizedLimit metrics synchronization ≠ 0 ∧
        row.firstArrival.valid ∧
          row.firstArrival.nanos ≤ synchronizedLimit metrics synchronization ∧
            metrics.earliestArrival.nanos ≤ row.firstArrival.nanos := by
  simp only [contributionOf, Bool.and_eq_true, decide_eq_true_iff]

theorem contributionOf_mitigable {policy : GovernorPolicy} {metrics : FanInMetrics}
    {synchronization : SynchronizationEvidence} {collisions : List SenderCollision}
    {row : SenderObservation}
    (h : (contributionOf policy metrics synchronization collisions row).mitigable = true) :
    synchronization.synchronized = true ∧ ¬isProtectedSender row policy ∧
      row.identity.sender ∉ collisions.map fun c => c.sender := by
  simp only [contributionOf, Bool.and_eq_true, Bool.not_eq_true', decide_eq_false_iff_not] at h
  exact ⟨h.1.1.1, h.1.2, h.2⟩

/-! ### The classification of granted evidence -/

/-- A check against recorded sequences refuses whatever the check without them refuses. -/
theorem AuthorityGranted.withoutSequences {bundle : EvidenceBundle} {policy : GovernorPolicy}
    {last : PerClass UInt64} (h : AuthorityGranted bundle policy last) :
    AuthorityGranted bundle policy noSequences where
  enabled := h.enabled
  structural := h.structural
  required klass hreq := assessStamp_without_sequences (h.required klass hreq)
  provenance hp := assessStamp_without_sequences (h.provenance hp)
  bindings := h.bindings

theorem classifyInstantaneous_incident {metrics : FanInMetrics}
    {synchronization : SynchronizationEvidence} {policy : GovernorPolicy}
    (h : (classifyInstantaneous metrics synchronization policy).incident) :
    synchronization.synchronized = true := by
  unfold classifyInstantaneous at h
  by_contra hs
  simp only [if_pos hs] at h
  split_ifs at h <;> simp [IncidentKind.incident] at h

/-- The instantaneous kind is never the stepped-down one. -/
theorem classifyInstantaneous_ne_recovery (metrics : FanInMetrics)
    (synchronization : SynchronizationEvidence) (policy : GovernorPolicy) :
    classifyInstantaneous metrics synchronization policy ≠ .recovery := by
  unfold classifyInstantaneous
  simp only
  split_ifs <;> simp

section Granted

variable {bundle : EvidenceBundle} {policy : GovernorPolicy} {collisions : List SenderCollision}
  {context : ClassificationContext}

theorem classify_authoritative (h : AuthorityGranted bundle policy noSequences) :
    (classify bundle policy collisions context).authoritative = true := by
  have hr := checkAuthority_reason_iff.mpr h
  simp [classify, hr]

theorem classify_kind (h : AuthorityGranted bundle policy noSequences) :
    (classify bundle policy collisions context).kind =
        (applyHysteresis policy context
          (classify bundle policy collisions context).instantaneousKind).1 ∧
      (classify bundle policy collisions context).hysteresisHeld =
        (applyHysteresis policy context
          (classify bundle policy collisions context).instantaneousKind).2.1 := by
  have hr := checkAuthority_reason_iff.mpr h
  simp [classify, hr]

theorem classify_instantaneousKind (h : AuthorityGranted bundle policy noSequences) :
    (classify bundle policy collisions context).instantaneousKind =
      classifyInstantaneous (classify bundle policy collisions context).metrics
        (classify bundle policy collisions context).synchronization policy := by
  have hr := checkAuthority_reason_iff.mpr h
  simp [classify, hr]

/-- The contributions are ranked against the collisions of the bundle. -/
theorem classify_contributions (h : AuthorityGranted bundle policy noSequences) :
    (classify bundle policy (detectCollisions bundle) context).contributions =
      rankContributions bundle policy
        (classify bundle policy (detectCollisions bundle) context).metrics
        (classify bundle policy (detectCollisions bundle) context).synchronization
        (detectCollisions bundle) := by
  have hr := checkAuthority_reason_iff.mpr h
  have hc : (if detectCollisions bundle ≠ [] then detectCollisions bundle
      else (computeMetrics bundle policy).collisions) = detectCollisions bundle := by
    split_ifs <;> rfl
  simp only [classify, hr, ne_eq, not_true_eq_false, if_false]
  simp only [ne_eq] at hc
  rw [hc]

theorem classify_synchronization :
    (classify bundle policy collisions context).synchronization =
      computeSynchronization bundle (computeMetrics bundle policy) policy := by
  simp only [classify]
  split_ifs <;> rfl

/-- The metrics of a classification are the computed ones, the collisions apart. -/
theorem classify_metrics :
    (classify bundle policy collisions context).metrics =
      { computeMetrics bundle policy with
        collisions := (classify bundle policy collisions context).metrics.collisions
        collidedSenders := (classify bundle policy collisions context).metrics.collidedSenders } := by
  simp only [classify]
  split_ifs <;> rfl

end Granted

/-- A kind above the instantaneous one is the prior kind or the step-down, and held. -/
theorem applyHysteresis_cases (policy : GovernorPolicy) (context : ClassificationContext)
    (instantaneous : IncidentKind) :
    (applyHysteresis policy context instantaneous).1 = instantaneous ∧
        (applyHysteresis policy context instantaneous).2.1 = false ∨
      (applyHysteresis policy context instantaneous).2.1 = true ∧
        ((applyHysteresis policy context instantaneous).1 = context.priorKind ∨
          (applyHysteresis policy context instantaneous).1 = .recovery) := by
  unfold applyHysteresis
  simp only
  split_ifs <;> simp

/-- A window ends up in Recovery only from an instantaneous kind below it. -/
theorem applyHysteresis_recovery {policy : GovernorPolicy} {context : ClassificationContext}
    {instantaneous : IncidentKind} (hi : instantaneous ≠ .recovery)
    (h : (applyHysteresis policy context instantaneous).1 = .recovery) :
    instantaneous.rank < IncidentKind.recovery.rank := by
  unfold applyHysteresis at h
  simp only at h
  split_ifs at h with h1 h2 h3
  · exact h3.2
  · contradiction
  · rw [← h]
    exact h1.1
  · contradiction

end IncastGovernor
