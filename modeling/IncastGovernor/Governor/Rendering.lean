import IncastGovernor.Governor.State

/-! The renderers of an explanation: the lines of text, and one JSON object whose fields are appended
in a fixed order. A text of the explanation is cut to the identifier bound and escaped. -/

namespace IncastGovernor

def EvidenceState.toText : EvidenceState → Text
  | .unknown => ascii "Unknown"
  | .present => ascii "Present"
  | .stale => ascii "Stale"
  | .contradictory => ascii "Contradictory"
  | .reordered => ascii "Reordered"
  | .outOfWindow => ascii "OutOfWindow"
  | .superseded => ascii "Superseded"

def MitigationScope.toText : MitigationScope → Text
  | .none => ascii "None"
  | .destination => ascii "Destination"
  | .queue => ascii "Queue"
  | .senderSet => ascii "SenderSet"
  | .resource => ascii "Resource"

/-! ### Escaping -/

def hexCharacter (digit : UInt8) : UInt8 := (ascii "0123456789abcdef").getD digit.toNat 0

/-- What `json_escape` appends for one byte. -/
def escapeCharacter (character : UInt8) : Text :=
  if character = 0x22 then ascii "\\\""
  else if character = 0x5C then ascii "\\\\"
  else if character = 0x0A then ascii "\\n"
  else if character = 0x0D then ascii "\\r"
  else if character = 0x09 then ascii "\\t"
  else if character < 0x20 then
    ascii "\\u00" ++ [hexCharacter ((character >>> 4) &&& 0x0F), hexCharacter (character &&& 0x0F)]
  else [character]

/-- The bytes of a text that are rendered. -/
def renderedPart (text : Text) : Text := text.take (kMaxIdentifierChars * 8)

def jsonEscape (text : Text) : Text := (renderedPart text).flatMap escapeCharacter

def quoted (text : Text) : Text := ascii "\"" ++ jsonEscape text ++ ascii "\""

/-! ### Fields -/

/-- A value that one of the `append_*` functions takes. -/
inductive FieldValue where
  | number (value : UInt64)
  | signed (value : Int64)
  | string (value : Text)
  | boolean (value : Bool)

def FieldValue.toText : FieldValue → Text
  | .number value => formatU64 value
  | .signed value => formatI64 value
  | .string value => quoted value
  | .boolean value => boolText value

/-- A document under construction, and whether its next field is the first one. -/
structure JsonBuffer where
  text : Text
  first : Bool

namespace JsonBuffer

/-- A comma where a field goes before. -/
def separate (buffer : JsonBuffer) : JsonBuffer :=
  { text := if buffer.first then buffer.text else buffer.text ++ ascii ",", first := false }

def appendField (buffer : JsonBuffer) (key value : Text) : JsonBuffer :=
  { text := buffer.separate.text ++ quoted key ++ ascii ":" ++ value, first := false }

def appendFields (buffer : JsonBuffer) (fields : List (Text × FieldValue)) : JsonBuffer :=
  fields.foldl (fun buffer field => buffer.appendField field.1 field.2.toText) buffer

def append (buffer : JsonBuffer) (text : Text) : JsonBuffer :=
  { buffer with text := buffer.text ++ text }

def appendQuoted (buffer : JsonBuffer) (text : Text) : JsonBuffer := buffer.append (quoted text)

/-- An object of its own fields. -/
def appendObject (buffer : JsonBuffer) (fields : List (Text × FieldValue)) : JsonBuffer :=
  { buffer with
    text := ((JsonBuffer.mk (buffer.text ++ ascii "\x7b") true).appendFields fields).text ++
      ascii "\x7d" }

/-- The items of an array, with a comma before each but the one at index 0. -/
def appendItems {α : Type} (item : JsonBuffer → α → JsonBuffer) (buffer : JsonBuffer)
    (items : List α) : JsonBuffer :=
  items.zipIdx.foldl
    (fun buffer x => item (if x.2 ≠ 0 then buffer.append (ascii ",") else buffer) x.1) buffer

/-- An array behind its key. -/
def appendArray {α : Type} (item : JsonBuffer → α → JsonBuffer) (buffer : JsonBuffer) (key : String)
    (items : List α) : JsonBuffer :=
  (appendItems item (buffer.separate.append (ascii "\"" ++ ascii key ++ ascii "\":[")) items).append
    (ascii "]")

end JsonBuffer

def SenderContribution.fields (c : SenderContribution) : List (Text × FieldValue) :=
  [(ascii "sender", .number c.identity.sender.value),
    (ascii "incarnation", .number c.identity.incarnation.value),
    (ascii "flow", .number c.identity.flow.value),
    (ascii "service", .string c.service.toText),
    (ascii "protected", .boolean c.protectedObligation),
    (ascii "collided", .boolean c.collided),
    (ascii "synchronized", .boolean c.synchronized),
    (ascii "mitigable", .boolean c.mitigable),
    (ascii "offered_bps", .number c.offeredRate.bytesPerSecond),
    (ascii "offered_share_bp", .number c.offeredShareBp.value.toUInt64),
    (ascii "capacity_share_bp", .number c.aggregateShareBp.value.toUInt64),
    (ascii "arrival_offset_ns", .signed c.arrivalOffset.nanos),
    (ascii "disposition", .string c.disposition)]

def JsonBuffer.appendContributor (buffer : JsonBuffer) (c : SenderContribution) : JsonBuffer :=
  buffer.appendObject c.fields

/-! ### The authority vector -/

/-- `authority.summary()`. -/
def AuthorityVector.summary (authority : AuthorityVector) : Text :=
  let mark (bound : Bool) (letter : String) := if bound then ascii letter else ascii "-"
  ascii "authorized=" ++ boolText authority.interventionAuthorized ++
    ascii " refusal=" ++ authority.refusal.toText ++ ascii " classes=" ++
    (EvidenceClass.all.zipIdx.flatMap fun item =>
      (if item.2 ≠ 0 then ascii "," else []) ++ item.1.toText ++ ascii "=" ++
        (authority.classes.get item.1).toText) ++
    ascii " bindings=" ++ mark authority.policyEnabled "P" ++ mark authority.eventBound "E" ++
    mark authority.destinationBound "D" ++ mark authority.windowBound "W" ++
    mark authority.epochBound "X" ++ mark authority.bootBound "B" ++ mark authority.leaseBound "L" ++
    mark authority.provenanceBound "V" ++
    (if authority.populationSaturated then ascii " population=saturated" else []) ++
    (if authority.identityCollisionPresent then ascii " identity_collision=true" else []) ++
    (if ¬authority.protectedFloorPreserved then ascii " protected_floor=violated" else []) ++
    if authority.clamped then ascii " clamped=true" else []

namespace Explanation

/-! ### The budget -/

def approximateBytes (e : Explanation) : ℕ :=
  e.headline.length + e.refusalDetail.length + (e.notes.map List.length).sum +
    (e.protectedExceptions.map List.length).sum +
    (e.topContributors.map fun c => c.disposition.length + 96).sum + 2048

def withinBudget (e : Explanation) : Prop :=
  e.approximateBytes ≤ kMaxExplanationBytes ∧ e.notes.length ≤ kMaxExplanationNotes ∧
    e.topContributors.length ≤ kMaxPenalizedSenders

instance (e : Explanation) : Decidable e.withinBudget := by delta withinBudget; infer_instance

/-! ### Text -/

/-- Labels, each with its value behind it. -/
def labelled (fields : List (String × Text)) : Text :=
  fields.flatMap fun field => ascii field.1 ++ field.2

def identityLine (e : Explanation) : Text :=
  labelled [("event=", formatU64 e.event.value), (" destination=", formatU64 e.destination.value),
    (" window=", formatU64 e.window.value), (" kind=", e.kind.toText),
    (" severity=", e.severity.toText), (" authoritative=", boolText e.authoritative)] ++
  (if e.refusal ≠ .none then
    labelled [(" refusal=", e.refusal.toText), (" detail=", jsonEscape e.refusalDetail)]
  else []) ++ ascii "\n"

def populationLine (e : Explanation) : Text :=
  labelled [("  population=", formatU64 e.metrics.activeSenders.toUInt64),
    (" synchronized=", formatU64 e.synchronization.synchronizedSenders.toUInt64),
    (" spread_ns=", formatI64 e.synchronization.arrivalSpread.nanos),
    (" sync=", boolText e.synchronization.synchronized),
    (" saturated=", boolText e.metrics.populationSaturated)] ++ ascii "\n"

def pressureLine (e : Explanation) : Text :=
  labelled [("  offered_bps=", formatU64 e.metrics.aggregateOffered.bytesPerSecond),
    (" capacity_bps=", formatU64 e.metrics.serviceRate.bytesPerSecond),
    (" oversubscription_bp=", formatU64 e.metrics.oversubscriptionBp.value.toUInt64),
    (" queue=", formatU64 e.affectedQueue.value),
    (" resource=", formatU64 e.affectedResource.value),
    (" queue_pressure_bp=", formatU64 e.metrics.queuePressureBp.value.toUInt64),
    (" occupancy=", formatU64 e.queueOccupancy.count),
    (" queue_capacity=", formatU64 e.queueCapacity.count),
    (" drops=", formatU64 e.metrics.dropEvents)] ++ ascii "\n"

def protectionLine (e : Explanation) : Text :=
  labelled [("  protected_offered_bps=", formatU64 e.metrics.protectedOffered.bytesPerSecond),
    (" protected_senders=", formatU64 e.metrics.protectedSenders.toUInt64),
    (" collisions=", formatU64 e.metrics.collidedSenders.toUInt64),
    (" penalizable_bps=", formatU64 e.metrics.penalizableOffered.bytesPerSecond)] ++ ascii "\n"

def mitigationLine (e : Explanation) : Text :=
  labelled [("  mitigation=", e.intent.kind.toText), (" scope=", e.intent.scope.toText),
    (" reduction_bp=", formatU64 e.intent.reductionBp.value.toUInt64),
    (" admission_bp=", formatU64 e.intent.admissionReductionBp.value.toUInt64),
    (" headroom_bytes=", formatU64 e.intent.headroomBytes.count),
    (" stagger_slots=", formatU64 e.intent.staggerSlots.toUInt64),
    (" penalized=", formatU64 (UInt64.ofNat e.intent.penalizedSenders.length)),
    (" duration_ns=", formatI64 e.intent.duration.nanos),
    (" escalating=", boolText e.intent.escalating)] ++ ascii "\n"

def interventionLine (e : Explanation) : Text :=
  labelled [("  interventions: ",
      if e.intent.active then
        if e.intent.continuesPrior then ascii "continued" else ascii "issued"
      else ascii "none"),
    (" intervention=", formatU64 e.intent.intervention.value),
    (" generation=", formatU64 e.intent.generation.value)] ++ ascii "\n"

/-- A heading with one line for each item, or nothing. -/
def listing {α : Type} (heading : String) (line : α → Text) (items : List α) : Text :=
  if items = [] then [] else ascii heading ++ items.flatMap line

def itemLine (text : Text) : Text := ascii "    - " ++ text ++ ascii "\n"

def contributorLine (c : SenderContribution) : Text :=
  labelled [("    - sender=", formatU64 c.identity.sender.value),
    (" incarnation=", formatU64 c.identity.incarnation.value), (" class=", c.service.toText),
    (" rate_bps=", formatU64 c.offeredRate.bytesPerSecond),
    (" share_bp=", formatU64 c.offeredShareBp.value.toUInt64),
    (" synchronized=", boolText c.synchronized), (" disposition=", c.disposition)] ++ ascii "\n"

def authorityLine (e : Explanation) : Text :=
  ascii "  authority: " ++ e.authority.summary ++ ascii "\n"

def renderText (e : Explanation) : Text :=
  e.identityLine ++ e.populationLine ++ e.pressureLine ++ e.protectionLine ++ e.mitigationLine ++
    e.interventionLine ++ listing "  protected exceptions:\n" itemLine e.protectedExceptions ++
    listing "  top contributors:\n" contributorLine e.topContributors ++ e.authorityLine ++
    listing "  notes:\n" itemLine e.notes

/-! ### JSON -/

def fields (e : Explanation) : List (Text × FieldValue) :=
  [(ascii "event", .number e.event.value),
    (ascii "event_generation", .number e.eventGeneration.value),
    (ascii "destination", .number e.destination.value),
    (ascii "window", .number e.window.value),
    (ascii "window_generation", .number e.windowGeneration.value),
    (ascii "epoch", .number e.epoch.value),
    (ascii "boot", .number e.boot.value),
    (ascii "worker", .number e.worker.value),
    (ascii "lease", .number e.lease.value),
    (ascii "policy", .number e.policy.value),
    (ascii "policy_generation", .number e.policyGeneration.value),
    (ascii "decided_at_ns", .signed e.decidedAt.nanos),
    (ascii "kind", .string e.kind.toText),
    (ascii "severity", .string e.severity.toText),
    (ascii "authoritative", .boolean e.authoritative),
    (ascii "refusal", .string e.refusal.toText),
    (ascii "refusal_detail", .string e.refusalDetail),
    (ascii "headline", .string e.headline),
    (ascii "active_senders", .number e.metrics.activeSenders.toUInt64),
    (ascii "distinct_flows", .number e.metrics.distinctFlows.toUInt64),
    (ascii "population_saturated", .boolean e.metrics.populationSaturated),
    (ascii "protected_senders", .number e.metrics.protectedSenders.toUInt64),
    (ascii "collided_senders", .number e.metrics.collidedSenders.toUInt64),
    (ascii "arrival_spread_ns", .signed e.metrics.arrivalSpread.nanos),
    (ascii "window_width_ns", .signed e.metrics.windowWidth.nanos),
    (ascii "aggregate_offered_bps", .number e.metrics.aggregateOffered.bytesPerSecond),
    (ascii "protected_offered_bps", .number e.metrics.protectedOffered.bytesPerSecond),
    (ascii "penalizable_offered_bps", .number e.metrics.penalizableOffered.bytesPerSecond),
    (ascii "service_rate_bps", .number e.metrics.serviceRate.bytesPerSecond),
    (ascii "oversubscription_bp", .number e.metrics.oversubscriptionBp.value.toUInt64),
    (ascii "queue_pressure_bp", .number e.metrics.queuePressureBp.value.toUInt64),
    (ascii "queue_occupancy", .number e.metrics.queueOccupancy.count),
    (ascii "queue_capacity", .number e.metrics.queueCapacity.count),
    (ascii "buffer_headroom", .number e.metrics.bufferHeadroom.count),
    (ascii "drop_events", .number e.metrics.dropEvents),
    (ascii "ecn_marks", .number e.metrics.ecnMarks),
    (ascii "synchronization_evaluated", .boolean e.synchronization.evaluated),
    (ascii "synchronized", .boolean e.synchronization.synchronized),
    (ascii "synchronized_senders", .number e.synchronization.synchronizedSenders.toUInt64),
    (ascii "arrival_compression_bp",
      .number e.synchronization.arrivalCompressionBp.value.toUInt64),
    (ascii "synchronized_share_bp", .number e.synchronization.synchronizedShareBp.value.toUInt64),
    (ascii "sync_window_bound_ns", .signed e.synchronization.syncWindowBound.nanos),
    (ascii "affected_queue", .number e.affectedQueue.value),
    (ascii "affected_resource", .number e.affectedResource.value),
    (ascii "mitigation", .string e.intent.kind.toText),
    (ascii "mitigation_scope", .string e.intent.scope.toText),
    (ascii "intervention", .number e.intent.intervention.value),
    (ascii "intervention_generation", .number e.intent.generation.value),
    (ascii "reduction_bp", .number e.intent.reductionBp.value.toUInt64),
    (ascii "admission_reduction_bp", .number e.intent.admissionReductionBp.value.toUInt64),
    (ascii "aggregate_reduction_bp", .number e.intent.aggregateReductionBp.value.toUInt64),
    (ascii "headroom_bytes", .number e.intent.headroomBytes.count),
    (ascii "stagger_slots", .number e.intent.staggerSlots.toUInt64),
    (ascii "penalized_senders", .number (UInt64.ofNat e.intent.penalizedSenders.length)),
    (ascii "intent_duration_ns", .signed e.intent.duration.nanos),
    (ascii "intent_escalating", .boolean e.intent.escalating),
    (ascii "intent_insufficient", .boolean e.intent.insufficient),
    (ascii "intent_clamped", .boolean e.intent.clamped),
    (ascii "intent_relaxes_prior", .boolean e.intent.relaxesPrior),
    (ascii "intent_continues_prior", .boolean e.intent.continuesPrior),
    (ascii "protected_floor_bps", .number e.intent.protectedFloor.bytesPerSecond),
    (ascii "authority_authorized", .boolean e.authority.interventionAuthorized),
    (ascii "authority_refusal", .string e.authority.refusal.toText),
    (ascii "authority_population_saturated", .boolean e.authority.populationSaturated),
    (ascii "authority_identity_collision", .boolean e.authority.identityCollisionPresent),
    (ascii "authority_protected_floor_preserved", .boolean e.authority.protectedFloorPreserved),
    (ascii "authority_recovery_policy_present", .boolean e.authority.recoveryPolicyPresent),
    (ascii "authority_clamped", .boolean e.authority.clamped)]

/-- The state of every evidence class under the name of the class. -/
def classFields (e : Explanation) : List (Text × FieldValue) :=
  EvidenceClass.all.map fun klass => (klass.toText, .string (e.authority.classes.get klass).toText)

def renderJson (e : Explanation) : Text :=
  let json := (JsonBuffer.mk (ascii "\x7b") true).appendFields e.fields
  let json := (json.separate.append (ascii "\"evidence_classes\":")).appendObject e.classFields
  let json := json.appendArray JsonBuffer.appendQuoted "protected_exceptions" e.protectedExceptions
  let json := json.appendArray JsonBuffer.appendQuoted "notes" e.notes
  let json := json.appendArray JsonBuffer.appendContributor "top_contributors" e.topContributors
  json.text ++ ascii "\x7d"

end Explanation

end IncastGovernor
