import IncastGovernor.Core.Codec
import IncastGovernor.Governor.State

/-! The versioned, integrity-checked serialisation of the governor's state: a header
with magic, version, generation, length and checksum, then the payload. Interventions
and their intents are nested encodings behind their lengths. Basis points are stored by
value; that a value was clamped when it was built is not stored. -/

namespace IncastGovernor

open Codec

/-! ### Enumerators in the order of the source -/

def ServiceClass.all : List ServiceClass :=
  [.bestEffort, .bulk, .interactive, .latencySensitive, .control, .replication]

def MitigationKind.all : List MitigationKind :=
  [.none, .pacingHint, .senderStaggering, .temporaryAdmissionReduction,
    .priorityAwareRateReduction, .temporaryHeadroomAdjustment, .congestionEscalation]

def MitigationScope.all : List MitigationScope :=
  [.none, .destination, .queue, .senderSet, .resource]

def InterventionState.all : List InterventionState :=
  [.proposed, .authorized, .active, .relaxing, .revalidating, .retired, .fenced, .refused,
    .expired]

def RefusalReason.all : List RefusalReason :=
  [.none, .policyDisabled, .noIncident, .missingEvidence, .staleEvidence, .contradictoryEvidence,
    .reorderedEvidence, .supersededEvidence, .outOfWindowEvidence, .eventMismatch,
    .destinationMismatch, .policyGenerationMismatch, .epochMismatch, .bootMismatch,
    .leaseMissing, .leaseExpired, .identityCollision, .protectedFloorConflict,
    .noMitigablePopulation, .boundsExceeded, .awaitingRecoveryPolicy, .malformedBundle,
    .capacityNotRevalidated]

def IncidentKind.all : List IncidentKind :=
  [.unknown, .noFanIn, .ordinaryManyToOne, .synchronizedIncastRisk, .activeIncast, .recovery]

def Severity.all : List Severity := [.none, .advisory, .elevated, .severe, .critical]

theorem MitigationKind.mem_all (kind : MitigationKind) : kind ∈ MitigationKind.all := by
  cases kind <;> decide

theorem MitigationScope.mem_all (scope : MitigationScope) : scope ∈ MitigationScope.all := by
  cases scope <;> decide

theorem ServiceClass.mem_all (service : ServiceClass) : service ∈ ServiceClass.all := by
  cases service <;> decide

theorem InterventionState.mem_all (state : InterventionState) : state ∈ InterventionState.all := by
  cases state <;> decide

theorem RefusalReason.mem_all (reason : RefusalReason) : reason ∈ RefusalReason.all := by
  cases reason <;> decide

theorem IncidentKind.mem_all (kind : IncidentKind) : kind ∈ IncidentKind.all := by
  cases kind <;> decide

theorem Severity.mem_all (severity : Severity) : severity ∈ Severity.all := by
  cases severity <;> decide

/-! ### Intents -/

/-- The flags of an intent, one bit each. -/
def mutationFlags (intent : MitigationIntent) : UInt16 :=
  (if intent.bounded then 1 else 0) ||| (if intent.clamped then 2 else 0) |||
    (if intent.insufficient then 4 else 0) ||| (if intent.escalating then 8 else 0) |||
    (if intent.relaxesPrior then 16 else 0) ||| (if intent.continuesPrior then 32 else 0)

def encodeIntent (intent : MitigationIntent) : Text :=
  [writeEnum MitigationKind.all intent.kind,
    writeEnum MitigationScope.all intent.scope,
    writeU64 intent.intervention.value,
    writeU64 intent.generation.value,
    writeU64 intent.event.value,
    writeU64 intent.eventGeneration.value,
    writeU64 intent.destination.value,
    writeU64 intent.destinationGeneration.value,
    writeU64 intent.window.value,
    writeU64 intent.windowGeneration.value,
    writeU64 intent.policy.value,
    writeU64 intent.policyGeneration.value,
    writeU64 intent.epoch.value,
    writeU64 intent.boot.value,
    writeU64 intent.worker.value,
    writeU64 intent.lease.value,
    writeI64 intent.issuedAt.nanos,
    writeI64 intent.expiresAt.nanos,
    writeI64 intent.duration.nanos,
    writeU32 intent.reductionBp.value,
    writeU32 intent.admissionReductionBp.value,
    writeU32 intent.aggregateReductionBp.value,
    writeU64 intent.headroomBytes.count,
    writeU32 intent.staggerSlots,
    writeU32 (UInt32.ofNat intent.penalizedSenders.length),
    intent.penalizedSenders.flatMap fun identity =>
      writeU64 identity.sender.value ++ (writeU64 identity.incarnation.value ++
        writeU64 identity.flow.value),
    writeU32 (UInt32.ofNat intent.affectedClasses.length),
    intent.affectedClasses.flatMap (writeEnum ServiceClass.all),
    writeU64 intent.queue.value,
    writeU64 intent.resource.value,
    writeU64 intent.protectedOffered.bytesPerSecond,
    writeU64 intent.protectedFloor.bytesPerSecond,
    writeU64 intent.resultingOffered.bytesPerSecond,
    writeU64 intent.requiredReduction.bytesPerSecond,
    writeU64 intent.achievableReduction.bytesPerSecond,
    writeU16 (mutationFlags intent)].flatten

def readIdentity : Reader SenderIdentity := do
  let sender ← readU64
  let incarnation ← readU64
  let flow ← readU64
  return { sender := ⟨sender⟩, incarnation := ⟨incarnation⟩, flow := ⟨flow⟩ }

def readIntent : Reader MitigationIntent := do
  let kind ← readEnum MitigationKind.all "intent carries an unknown mitigation kind"
  let scope ← readEnum MitigationScope.all "intent carries an unknown mitigation scope"
  let intervention ← readU64
  let generation ← readU64
  let event ← readU64
  let eventGeneration ← readU64
  let destination ← readU64
  let destinationGeneration ← readU64
  let window ← readU64
  let windowGeneration ← readU64
  let policy ← readU64
  let policyGeneration ← readU64
  let epoch ← readU64
  let boot ← readU64
  let worker ← readU64
  let lease ← readU64
  let issuedAt ← readI64
  let expiresAt ← readI64
  let duration ← readI64
  let reductionBp ← readU32
  let admissionReductionBp ← readU32
  let aggregateReductionBp ← readU32
  let headroomBytes ← readU64
  let staggerSlots ← readU32
  let penalized := (← readU32).toNat
  if penalized > kMaxPenalizedSenders then
    fail .oversizedInput "penalized sender list exceeds the supported bound"
  let penalizedSenders ← readMany readIdentity penalized
  let affected := (← readU32).toNat
  if affected > kServiceClassCount then
    fail .oversizedInput "affected class list exceeds the service class domain"
  let affectedClasses ←
    readMany (readEnum ServiceClass.all "intent carries an unknown service class") affected
  let queue ← readU64
  let resource ← readU64
  let protectedOffered ← readU64
  let protectedFloor ← readU64
  let resultingOffered ← readU64
  let requiredReduction ← readU64
  let achievableReduction ← readU64
  let flags ← readU16
  if (← get) ≠ [] then
    fail .malformedInput "trailing bytes after the encoded intent"
  return {
    kind, scope
    intervention := ⟨intervention⟩
    generation := ⟨generation⟩
    event := ⟨event⟩
    eventGeneration := ⟨eventGeneration⟩
    destination := ⟨destination⟩
    destinationGeneration := ⟨destinationGeneration⟩
    window := ⟨window⟩
    windowGeneration := ⟨windowGeneration⟩
    policy := ⟨policy⟩
    policyGeneration := ⟨policyGeneration⟩
    epoch := ⟨epoch⟩
    boot := ⟨boot⟩
    worker := ⟨worker⟩
    lease := ⟨lease⟩
    issuedAt := ⟨issuedAt⟩
    expiresAt := ⟨expiresAt⟩
    duration := ⟨duration⟩
    reductionBp := BasisPoints.of reductionBp
    admissionReductionBp := BasisPoints.of admissionReductionBp
    aggregateReductionBp := BasisPoints.of aggregateReductionBp
    headroomBytes := ⟨headroomBytes⟩
    staggerSlots, penalizedSenders, affectedClasses
    queue := ⟨queue⟩
    resource := ⟨resource⟩
    protectedOffered := ⟨protectedOffered⟩
    protectedFloor := ⟨protectedFloor⟩
    resultingOffered := ⟨resultingOffered⟩
    requiredReduction := ⟨requiredReduction⟩
    achievableReduction := ⟨achievableReduction⟩
    bounded := flags &&& 1 ≠ 0
    clamped := flags &&& 2 ≠ 0
    insufficient := flags &&& 4 ≠ 0
    escalating := flags &&& 8 ≠ 0
    relaxesPrior := flags &&& 16 ≠ 0
    continuesPrior := flags &&& 32 ≠ 0 }

def decodeIntent (bytes : Text) : Outcome MitigationIntent := decodeWith readIntent bytes

/-! ### Interventions -/

def encodeIntervention (intervention : Intervention) : Text :=
  let intentBytes := encodeIntent intervention.intent
  [writeU64 intervention.id.value,
    writeU64 intervention.generation.value,
    writeU64 intervention.destination.value,
    writeU64 intervention.destinationGeneration.value,
    writeU64 intervention.window.value,
    writeU64 intervention.windowGeneration.value,
    writeEnum InterventionState.all intervention.state,
    writeU64 intervention.epoch.value,
    writeU64 intervention.boot.value,
    writeU64 intervention.worker.value,
    writeU64 intervention.lease.value,
    writeU64 intervention.policy.value,
    writeU64 intervention.policyGeneration.value,
    writeI64 intervention.createdAt.nanos,
    writeI64 intervention.updatedAt.nanos,
    writeI64 intervention.expiresAt.nanos,
    writeI64 intervention.lastRelaxedAt.nanos,
    writeU32 intervention.appliedReductionBp.value,
    writeU32 intervention.relaxSteps,
    writeU32 intervention.continueSteps,
    writeEnum RefusalReason.all intervention.refusal,
    writeStr intervention.refusalDetail,
    writeU32 (UInt32.ofNat intentBytes.length),
    intentBytes].flatten

/-- The next bytes of an encoding nested behind its length, decoded on their own. -/
def readNested {α : Type} (decode : Text → Outcome α) (oversized truncated : String) :
    Reader α := do
  let length := (← readU32).toNat
  if length > kMaxJournalRecordBytes then
    fail .oversizedInput oversized
  if (← get).length < length then
    fail .truncatedInput truncated
  let a ← decode ((← get).take length)
  let _ ← readRaw length
  return a

def readIntervention : Reader Intervention := do
  let id ← readU64
  let generation ← readU64
  let destination ← readU64
  let destinationGeneration ← readU64
  let window ← readU64
  let windowGeneration ← readU64
  let state ← readEnum InterventionState.all "intervention carries an unknown lifecycle state"
  let epoch ← readU64
  let boot ← readU64
  let worker ← readU64
  let lease ← readU64
  let policy ← readU64
  let policyGeneration ← readU64
  let createdAt ← readI64
  let updatedAt ← readI64
  let expiresAt ← readI64
  let lastRelaxedAt ← readI64
  let appliedReductionBp ← readU32
  let relaxSteps ← readU32
  let continueSteps ← readU32
  let refusal ← readEnum RefusalReason.all "intervention carries an unknown refusal reason"
  let refusalDetail ← readStr (kMaxIdentifierChars * 8)
  let intent ← readNested decodeIntent "encoded intent exceeds the record bound"
    "encoded intent is truncated"
  if (← get) ≠ [] then
    fail .malformedInput "trailing bytes after the encoded intervention"
  return {
    id := ⟨id⟩
    generation := ⟨generation⟩
    destination := ⟨destination⟩
    destinationGeneration := ⟨destinationGeneration⟩
    window := ⟨window⟩
    windowGeneration := ⟨windowGeneration⟩
    state
    intent
    epoch := ⟨epoch⟩
    boot := ⟨boot⟩
    worker := ⟨worker⟩
    lease := ⟨lease⟩
    policy := ⟨policy⟩
    policyGeneration := ⟨policyGeneration⟩
    createdAt := ⟨createdAt⟩
    updatedAt := ⟨updatedAt⟩
    expiresAt := ⟨expiresAt⟩
    lastRelaxedAt := ⟨lastRelaxedAt⟩
    appliedReductionBp := BasisPoints.of appliedReductionBp
    relaxSteps, continueSteps, refusal, refusalDetail }

def decodeIntervention (bytes : Text) : Outcome Intervention := decodeWith readIntervention bytes

/-! ### The state -/

/-- 'IGST'. -/
def kStateMagic : UInt32 := 0x54534749

def encodeWindowRecord (record : WindowRecord) : Text :=
  [writeU64 record.window.value,
    writeU64 record.windowGeneration.value,
    writeI64 record.start.nanos,
    writeI64 record.end.nanos,
    writeEnum IncidentKind.all record.kind,
    writeEnum Severity.all record.severity,
    writeU32 record.oversubscriptionBp.value,
    writeU32 record.queuePressureBp.value,
    writeU32 record.activeSenders,
    writeBool record.authoritative].flatten

def encodePayload (state : GovernorState) : Text :=
  [writeU64 state.generation.value,
    writeU64 state.destination.value,
    writeU64 state.destinationGeneration.value,
    writeU64 state.boot.value,
    writeU64 state.epoch.value,
    writeU64 state.policy.value,
    writeU64 state.policyGeneration.value,
    writeI64 state.lastEvaluation.nanos,
    writeU64 state.evaluationCount,
    writeU64 state.refusalCount,
    writeU64 state.interventionCount,
    writeU32 state.incidentStreak,
    writeU32 state.cleanStreak,
    writeU64 state.nextInterventionGeneration.value,
    writeBool state.requiresRevalidation,
    writeBool state.restoredFromDurable,
    writeU32 state.restoreCount,
    writeBool state.recovery.tracking,
    writeI64 state.recovery.since.nanos,
    writeU32 state.recovery.cleanWindows,
    writeU32 state.recovery.incidentWindows,
    writeU64 state.recovery.dropsDuringRecovery,
    writeBool state.recovery.capacityRevalidated,
    writeU64 state.lastSequenceBoot.value,
    EvidenceClass.all.flatMap fun klass => writeU64 (state.lastSequence.get klass),
    writeU32 (UInt32.ofNat state.history.length),
    state.history.flatMap encodeWindowRecord,
    writeU32 (UInt32.ofNat state.interventions.length),
    state.interventions.flatMap fun intervention =>
      let bytes := encodeIntervention intervention
      writeU32 (UInt32.ofNat bytes.length) ++ bytes].flatten

def encodeState (state : GovernorState) : Text :=
  let payload := encodePayload state
  [writeU32 kStateMagic,
    writeU16 kSnapshotFormatVersion,
    writeU64 state.generation.value,
    writeU32 (UInt32.ofNat payload.length),
    writeU32 (crc32c payload),
    payload].flatten

def readWindowRecord : Reader WindowRecord := do
  let window ← readU64
  let windowGeneration ← readU64
  let start ← readI64
  let «end» ← readI64
  let kind ← readEnum IncidentKind.all "history carries an unknown incident kind"
  let severity ← readEnum Severity.all "history carries an unknown severity"
  let oversubscriptionBp ← readU32
  let queuePressureBp ← readU32
  let activeSenders ← readU32
  let authoritative ← readBool
  return {
    window := ⟨window⟩
    windowGeneration := ⟨windowGeneration⟩
    start := ⟨start⟩
    «end» := ⟨«end»⟩
    kind, severity
    oversubscriptionBp := BasisPoints.of oversubscriptionBp
    queuePressureBp := BasisPoints.of queuePressureBp
    activeSenders, authoritative }

/-- The sequences in class order. -/
def readSequences : Reader (PerClass UInt64) := do
  let fanIn ← readU64
  let arrivalTiming ← readU64
  let aggregateRate ← readU64
  let destination ← readU64
  let capacity ← readU64
  let queue ← readU64
  let service ← readU64
  let provenance ← readU64
  return { fanIn, arrivalTiming, aggregateRate, destination, capacity, queue, service, provenance }

/-- The payload's fields; bytes behind the last one are not looked at. -/
def readState : Reader GovernorState := do
  let generation ← readU64
  let destination ← readU64
  let destinationGeneration ← readU64
  let boot ← readU64
  let epoch ← readU64
  let policy ← readU64
  let policyGeneration ← readU64
  let lastEvaluation ← readI64
  let evaluationCount ← readU64
  let refusalCount ← readU64
  let interventionCount ← readU64
  let incidentStreak ← readU32
  let cleanStreak ← readU32
  let nextInterventionGeneration ← readU64
  if nextInterventionGeneration = 0 then
    fail .corruptState "next intervention generation is absent"
  let requiresRevalidation ← readBool
  let restoredFromDurable ← readBool
  let restoreCount ← readU32
  let tracking ← readBool
  let since ← readI64
  let cleanWindows ← readU32
  let incidentWindows ← readU32
  let dropsDuringRecovery ← readU64
  let capacityRevalidated ← readBool
  let lastSequenceBoot ← readU64
  let lastSequence ← readSequences
  let windows := (← readU32).toNat
  if windows > kMaxWindowHistory then
    fail .oversizedInput "state history exceeds the supported bound"
  let history ← readMany readWindowRecord windows
  let table := (← readU32).toNat
  if table > kMaxInterventions then
    fail .oversizedInput "state intervention table exceeds the supported bound"
  let interventions ← readMany (readNested decodeIntervention
    "encoded intervention exceeds the record bound" "encoded intervention is truncated") table
  return {
    generation := ⟨generation⟩
    destination := ⟨destination⟩
    destinationGeneration := ⟨destinationGeneration⟩
    boot := ⟨boot⟩
    epoch := ⟨epoch⟩
    policy := ⟨policy⟩
    policyGeneration := ⟨policyGeneration⟩
    lastEvaluation := ⟨lastEvaluation⟩
    evaluationCount, refusalCount, interventionCount, incidentStreak, cleanStreak
    recovery :=
      { tracking, since := ⟨since⟩, cleanWindows, incidentWindows, dropsDuringRecovery
        capacityRevalidated }
    history, interventions, lastSequence
    lastSequenceBoot := ⟨lastSequenceBoot⟩
    nextInterventionGeneration := ⟨nextInterventionGeneration⟩
    requiresRevalidation, restoredFromDurable, restoreCount }

/-- The header of a container: the generation, the length of the payload and its
checksum. -/
def readStateHeader : Reader (StateGeneration × ℕ × UInt32) := do
  let magic ← readU32
  if magic ≠ kStateMagic then
    fail .corruptState "state container magic mismatch"
  let version ← readU16
  if version ≠ kSnapshotFormatVersion then
    fail .unsupportedVersion "unsupported state container version"
  let generation ← readU64
  let length := (← readU32).toNat
  if length > kMaxJournalRecordBytes * 64 then
    fail .oversizedInput "state payload exceeds the supported bound"
  let checksum ← readU32
  if (← get).length < length then
    fail .truncatedInput "state payload is truncated"
  return (⟨generation⟩, length, checksum)

def decodeState (bytes : Text) : Outcome GovernorState := do
  let ((generation, length, checksum), rest) ← readStateHeader bytes
  let payload := rest.take length
  if crc32c payload ≠ checksum then
    fail .checksumMismatch "state payload failed its integrity check"
  let state ← decodeWith readState payload
  state.validate
  if state.generation ≠ generation then
    fail .corruptState "state container generation disagrees with its payload"
  return state

/-! ### What a decoded state comes from -/

theorem decodeState_eq_ok {bytes : Text} {state : GovernorState} :
    decodeState bytes = .ok state ↔ ∃ length checksum rest,
      readStateHeader bytes = .ok ((state.generation, length, checksum), rest) ∧
        crc32c (rest.take length) = checksum ∧ decodeWith readState (rest.take length) = .ok state ∧
          state.validate = .ok () := by
  unfold decodeState
  simp only [outcome_bind_eq_ok, outcome_check_eq_ok, ne_eq, not_not]
  constructor
  · rintro ⟨⟨⟨generation, length, checksum⟩, rest⟩, hheader, hsum, state', hstate, _, hvalid,
      rfl, hend⟩
    obtain rfl := Except.ok.inj hend
    exact ⟨length, checksum, rest, hheader, hsum, hstate, hvalid⟩
  · rintro ⟨length, checksum, rest, hheader, hsum, hstate, hvalid⟩
    exact ⟨_, hheader, hsum, state, hstate, (), hvalid, rfl, rfl⟩

theorem readStateHeader_generation {bytes rest : Text} {generation : StateGeneration} {length : ℕ}
    {checksum : UInt32} (h : readStateHeader bytes = .ok ((generation, length, checksum), rest)) :
    ∃ more, bytes = writeU32 kStateMagic ++ (writeU16 kSnapshotFormatVersion ++
      (writeU64 generation.value ++ more)) := by
  unfold readStateHeader at h
  simp only [bind_eq_ok, check_eq_ok, get_eq_ok, pure_eq_ok, readU32_eq_ok, readU16_eq_ok,
    readU64_eq_ok, not_not, ne_eq] at h
  obtain ⟨magic, _, rfl, rfl, version, _, rfl, rfl, value, more, rfl, _, _, rfl, -, _, _, rfl, _, _,
    -, -, hend⟩ := h
  obtain ⟨hheader, -⟩ := Prod.mk.inj hend
  obtain ⟨rfl, -⟩ := Prod.mk.inj hheader
  exact ⟨_, rfl⟩

/-- Whatever an encoding lost, the generation is kept. -/
theorem decodeState_generation {state decoded : GovernorState}
    (h : decodeState (encodeState state) = .ok decoded) :
    decoded.generation = state.generation := by
  obtain ⟨length, checksum, rest, hheader, -⟩ := decodeState_eq_ok.mp h
  obtain ⟨more, hbytes⟩ := readStateHeader_generation hheader
  simp only [encodeState, List.flatten_cons] at hbytes
  have htail := List.append_cancel_left (List.append_cancel_left hbytes)
  have hread := readU64_writeU64 state.generation.value
    (writeU32 (UInt32.ofNat (encodePayload state).length) ++
      (writeU32 (crc32c (encodePayload state)) ++ (encodePayload state ++ [])))
  have hread' := readU64_writeU64 decoded.generation.value more
  rw [← htail] at hread'
  have hvalue := (Prod.mk.inj (Except.ok.inj (hread'.symm.trans hread))).1
  exact congrArg Generation.mk hvalue

end IncastGovernor
