import IncastGovernor.Durable.StateCodec

/-! The round trip of the state codec. A state whose lists are within their bounds, whose
records have an identity and a bounded intent, and whose basis points were not clamped when
they were built is decoded from its encoding as it was. -/

namespace IncastGovernor

open Codec

/-! ### What can be encoded -/

structure MitigationIntent.Encodable (intent : MitigationIntent) : Prop where
  reduction : intent.reductionBp.clamped = false
  admission : intent.admissionReductionBp.clamped = false
  aggregate : intent.aggregateReductionBp.clamped = false
  penalized : intent.penalizedSenders.length ≤ kMaxPenalizedSenders
  affected : intent.affectedClasses.length ≤ kServiceClassCount

structure Intervention.Encodable (intervention : Intervention) : Prop where
  id : intervention.id.valid
  bounded : intervention.intent.bounded = true
  intent : intervention.intent.Encodable
  applied : intervention.appliedReductionBp.clamped = false
  detail : intervention.refusalDetail.length ≤ kMaxIdentifierChars * 8

structure WindowRecord.Encodable (record : WindowRecord) : Prop where
  oversubscription : record.oversubscriptionBp.clamped = false
  queuePressure : record.queuePressureBp.clamped = false

structure GovernorState.Encodable (state : GovernorState) : Prop where
  next : state.nextInterventionGeneration.value ≠ 0
  history : state.history.length ≤ kMaxWindowHistory
  table : state.interventions.length ≤ kMaxInterventions
  windows : ∀ record ∈ state.history, record.Encodable
  records : ∀ intervention ∈ state.interventions, intervention.Encodable

/-- Basis points that were not clamped are built again from their value. -/
theorem of_value_unclamped {bp : BasisPoints} (h : bp.clamped = false) :
    BasisPoints.of bp.value = bp := by
  obtain ⟨value, clamped, hle⟩ := bp
  obtain rfl : clamped = false := h
  unfold BasisPoints.of
  rw [dif_neg (UInt32.not_lt.mpr hle)]

/-! ### Intents -/

/-- The flags are read back one by one. -/
theorem mutationFlags_bits (intent : MitigationIntent) :
    decide (mutationFlags intent &&& 1 ≠ 0) = intent.bounded ∧
      decide (mutationFlags intent &&& 2 ≠ 0) = intent.clamped ∧
      decide (mutationFlags intent &&& 4 ≠ 0) = intent.insufficient ∧
      decide (mutationFlags intent &&& 8 ≠ 0) = intent.escalating ∧
      decide (mutationFlags intent &&& 16 ≠ 0) = intent.relaxesPrior ∧
      decide (mutationFlags intent &&& 32 ≠ 0) = intent.continuesPrior := by
  unfold mutationFlags
  cases intent.bounded <;> cases intent.clamped <;> cases intent.insufficient <;>
    cases intent.escalating <;> cases intent.relaxesPrior <;> cases intent.continuesPrior <;>
      decide

theorem readIdentity_write (identity : SenderIdentity) (rest : Text) :
    readIdentity ((writeU64 identity.sender.value ++ (writeU64 identity.incarnation.value ++
      writeU64 identity.flow.value)) ++ rest) = .ok (identity, rest) := by
  unfold readIdentity
  simp only [List.append_assoc, readU64_bind]
  rfl

theorem encodeIntent_length {intent : MitigationIntent} (h : intent.Encodable) :
    (encodeIntent intent).length ≤ 25000 := by
  have hpenalized : (intent.penalizedSenders.flatMap fun identity : SenderIdentity =>
      writeU64 identity.sender.value ++ (writeU64 identity.incarnation.value ++
        writeU64 identity.flow.value)).length ≤ 24 * kMaxPenalizedSenders :=
    Nat.le_trans (flatMap_length_le fun identity _ => by simp) (Nat.mul_le_mul_left _ h.penalized)
  have haffected : (intent.affectedClasses.flatMap (writeEnum ServiceClass.all)).length ≤
      1 * kServiceClassCount :=
    Nat.le_trans (flatMap_length_le fun service _ => by simp) (Nat.mul_le_mul_left _ h.affected)
  unfold encodeIntent
  simp only [List.flatten_cons, List.flatten_nil, List.length_append, List.length_nil,
    writeEnum_length, writeU64_length, writeI64_length, writeU32_length, writeU16_length]
  simp only [kMaxPenalizedSenders, kServiceClassCount] at hpenalized haffected
  generalize List.length (intent.penalizedSenders.flatMap _) = senders at hpenalized ⊢
  generalize List.length (intent.affectedClasses.flatMap _) = classes at haffected ⊢
  simp only [← Nat.add_assoc, Nat.reduceAdd]
  omega

theorem readIntent_encodeIntent {intent : MitigationIntent} (h : intent.Encodable) :
    readIntent (encodeIntent intent) = .ok (intent, []) := by
  have hpenalized : (UInt32.ofNat intent.penalizedSenders.length).toNat =
      intent.penalizedSenders.length :=
    UInt32.toNat_ofNat_of_lt' (Nat.lt_of_le_of_lt h.penalized (by decide))
  have haffected : (UInt32.ofNat intent.affectedClasses.length).toNat =
      intent.affectedClasses.length :=
    UInt32.toNat_ofNat_of_lt' (Nat.lt_of_le_of_lt h.affected (by decide))
  obtain ⟨hbounded, hclamped, hinsufficient, hescalating, hrelaxes, hcontinues⟩ :=
    mutationFlags_bits intent
  unfold readIntent encodeIntent
  simp only [List.flatten_cons, List.flatten_nil]
  rw [bind_of_ok (readEnum_writeEnum (MitigationKind.mem_all _) (by decide) _ _),
    bind_of_ok (readEnum_writeEnum (MitigationScope.mem_all _) (by decide) _ _)]
  simp only [readU64_bind, readI64_bind, readU32_bind, hpenalized]
  rw [if_neg (Nat.not_lt.mpr h.penalized),
    bind_of_ok (readMany_flatMap (fun identity _ rest => readIdentity_write identity rest) _)]
  simp only [readU32_bind, haffected]
  rw [if_neg (Nat.not_lt.mpr h.affected),
    bind_of_ok (readMany_flatMap (fun service _ rest =>
      readEnum_writeEnum (ServiceClass.mem_all service) (by decide) _ rest) _)]
  simp only [readU64_bind, readU16_bind]
  rw [bind_of_ok (get_eq_ok.mpr rfl), if_neg (by simp)]
  rw [hbounded, hclamped, hinsufficient, hescalating, hrelaxes, hcontinues,
    of_value_unclamped h.reduction, of_value_unclamped h.admission,
    of_value_unclamped h.aggregate]
  rfl

theorem decodeIntent_encodeIntent {intent : MitigationIntent} (h : intent.Encodable) :
    decodeIntent (encodeIntent intent) = .ok intent := by
  rw [decodeIntent, decodeWith, readIntent_encodeIntent h]
  rfl

/-! ### Interventions -/

/-- An encoding nested behind its length is decoded on its own. -/
theorem readNested_write {α : Type} {decode : Text → Outcome α} {bytes : Text} {a : α}
    (hlen : bytes.length ≤ kMaxJournalRecordBytes) (h : decode bytes = .ok a)
    (oversized truncated : String) (rest : Text) :
    readNested decode oversized truncated
      ((writeU32 (UInt32.ofNat bytes.length) ++ bytes) ++ rest) = .ok (a, rest) := by
  have hlength : (UInt32.ofNat bytes.length).toNat = bytes.length :=
    UInt32.toNat_ofNat_of_lt' (Nat.lt_of_le_of_lt hlen (by decide))
  have hraw : readRaw bytes.length (bytes ++ rest) = .ok (bytes, rest) :=
    readRaw_eq_ok.mpr ⟨rfl, rfl⟩
  unfold readNested
  rw [List.append_assoc]
  simp only [readU32_bind, hlength]
  rw [if_neg (Nat.not_lt.mpr hlen), bind_of_ok (get_eq_ok.mpr rfl),
    if_neg (by rw [List.length_append]; omega), bind_of_ok (get_eq_ok.mpr rfl), List.take_left, h]
  show (readRaw bytes.length >>= fun _ => pure a) (bytes ++ rest) = _
  rw [bind_of_ok hraw]
  rfl

theorem writeStr_length_le (text : Text) :
    (writeStr text).length ≤ 4 + kMaxIdentifierChars * 8 := by
  unfold writeStr
  rw [List.length_append, writeU32_length, List.length_take]
  omega

theorem encodeIntervention_length {intervention : Intervention} (h : intervention.intent.Encodable) :
    (encodeIntervention intervention).length ≤ 26000 := by
  have hintent := encodeIntent_length h
  have hdetail := writeStr_length_le intervention.refusalDetail
  unfold encodeIntervention
  simp only [List.flatten_cons, List.flatten_nil, List.length_append, List.length_nil,
    writeEnum_length, writeU64_length, writeI64_length, writeU32_length]
  simp only [kMaxIdentifierChars] at hdetail
  generalize List.length (encodeIntent intervention.intent) = intent at hintent ⊢
  generalize List.length (writeStr intervention.refusalDetail) = detail at hdetail ⊢
  simp only [← Nat.add_assoc, Nat.reduceAdd]
  omega

theorem readIntervention_encodeIntervention {intervention : Intervention}
    (h : intervention.Encodable) :
    readIntervention (encodeIntervention intervention) = .ok (intervention, []) := by
  have hintent : (encodeIntent intervention.intent).length ≤ kMaxJournalRecordBytes :=
    Nat.le_trans (encodeIntent_length h.intent) (by decide)
  unfold readIntervention encodeIntervention
  simp only [List.flatten_cons, List.flatten_nil, List.append_nil]
  simp only [readU64_bind]
  rw [bind_of_ok (readEnum_writeEnum (InterventionState.mem_all _) (by decide) _ _)]
  simp only [readU64_bind, readI64_bind, readU32_bind]
  rw [bind_of_ok (readEnum_writeEnum (RefusalReason.mem_all _) (by decide) _ _),
    bind_of_ok (readStr_writeStr h.detail _)]
  have hnested := readNested_write hintent (decodeIntent_encodeIntent h.intent)
    "encoded intent exceeds the record bound" "encoded intent is truncated" []
  rw [List.append_nil] at hnested
  rw [bind_of_ok hnested, bind_of_ok (get_eq_ok.mpr rfl), if_neg (by simp),
    of_value_unclamped h.applied]
  rfl

theorem decodeIntervention_encodeIntervention {intervention : Intervention}
    (h : intervention.Encodable) :
    decodeIntervention (encodeIntervention intervention) = .ok intervention := by
  rw [decodeIntervention, decodeWith, readIntervention_encodeIntervention h]
  rfl

/-! ### Windows -/

theorem readWindowRecord_encodeWindowRecord {record : WindowRecord} (h : record.Encodable)
    (rest : Text) :
    readWindowRecord (encodeWindowRecord record ++ rest) = .ok (record, rest) := by
  unfold readWindowRecord encodeWindowRecord
  simp only [List.flatten_cons, List.flatten_nil, List.append_nil, List.append_assoc]
  simp only [readU64_bind, readI64_bind]
  rw [bind_of_ok (readEnum_writeEnum (IncidentKind.mem_all _) (by decide) _ _),
    bind_of_ok (readEnum_writeEnum (Severity.mem_all _) (by decide) _ _)]
  simp only [readU32_bind, readBool_bind]
  rw [of_value_unclamped h.oversubscription, of_value_unclamped h.queuePressure]
  rfl

theorem encodeWindowRecord_length (record : WindowRecord) :
    (encodeWindowRecord record).length = 47 := by
  unfold encodeWindowRecord
  simp only [List.flatten_cons, List.flatten_nil, List.length_append, List.length_nil,
    writeEnum_length, writeU64_length, writeI64_length, writeU32_length, writeBool_length,
    Nat.reduceAdd]

theorem readSequences_write (sequences : PerClass UInt64) (rest : Text) :
    readSequences ((EvidenceClass.all.flatMap fun klass => writeU64 (sequences.get klass)) ++ rest) =
      .ok (sequences, rest) := by
  unfold readSequences
  simp only [EvidenceClass.all, List.flatMap_cons, List.flatMap_nil, List.append_nil,
    List.append_assoc, readU64_bind]
  rfl

/-! ### The state -/

/-- The two lists of a state account for the length of its encoding. -/
theorem encodePayload_length_lists {state : GovernorState} (h : state.Encodable) :
    (encodePayload state).length ≤
      1000 + 47 * state.history.length + 26004 * state.interventions.length := by
  have hhistory : (state.history.flatMap encodeWindowRecord).length ≤ 47 * state.history.length :=
    flatMap_length_le fun record _ => (encodeWindowRecord_length record).le
  have htable : (state.interventions.flatMap fun intervention =>
      let bytes := encodeIntervention intervention
      writeU32 (UInt32.ofNat bytes.length) ++ bytes).length ≤
        26004 * state.interventions.length := by
    refine flatMap_length_le fun intervention hm => ?_
    have hlen := encodeIntervention_length (h.records intervention hm).intent
    simp only [List.length_append, writeU32_length]
    omega
  have hsequences : (EvidenceClass.all.flatMap fun klass =>
      writeU64 (state.lastSequence.get klass)).length ≤ 8 * EvidenceClass.all.length :=
    flatMap_length_le fun klass _ => (writeU64_length _).le
  unfold encodePayload
  simp only [List.flatten_cons, List.flatten_nil, List.length_append, List.length_nil,
    writeU64_length, writeI64_length, writeU32_length, writeBool_length]
  simp only [EvidenceClass.all, List.length_cons, List.length_nil] at hsequences ⊢
  generalize List.length (state.history.flatMap _) = history at hhistory ⊢
  generalize List.length (state.interventions.flatMap _) = table at htable ⊢
  generalize List.length (List.flatMap _ [_, _, _, _, _, _, _, _]) = sequences at hsequences ⊢
  simp only [← Nat.add_assoc, Nat.reduceAdd]
  omega

theorem encodePayload_length {state : GovernorState} (h : state.Encodable) :
    (encodePayload state).length ≤ kMaxJournalRecordBytes * 64 := by
  have hlists := encodePayload_length_lists h
  have hhistory := h.history
  have htable := h.table
  simp only [kMaxWindowHistory, kMaxInterventions, kMaxJournalRecordBytes] at *
  omega

theorem encodeState_length (state : GovernorState) :
    (encodeState state).length = 22 + (encodePayload state).length := by
  unfold encodeState
  simp only [List.flatten_cons, List.flatten_nil, List.length_append, List.length_nil,
    writeU64_length, writeU32_length, writeU16_length]
  omega

theorem readState_encodePayload {state : GovernorState} (h : state.Encodable) :
    readState (encodePayload state) = .ok (state, []) := by
  have hhistory : (UInt32.ofNat state.history.length).toNat = state.history.length :=
    UInt32.toNat_ofNat_of_lt' (Nat.lt_of_le_of_lt h.history (by decide))
  have htable : (UInt32.ofNat state.interventions.length).toNat = state.interventions.length :=
    UInt32.toNat_ofNat_of_lt' (Nat.lt_of_le_of_lt h.table (by decide))
  have hrecords : ∀ intervention ∈ state.interventions, ∀ rest,
      readNested decodeIntervention "encoded intervention exceeds the record bound"
        "encoded intervention is truncated"
        ((writeU32 (UInt32.ofNat (encodeIntervention intervention).length) ++
          encodeIntervention intervention) ++ rest) = .ok (intervention, rest) := by
    intro intervention hm rest
    have hi := h.records intervention hm
    exact readNested_write (Nat.le_trans (encodeIntervention_length hi.intent) (by decide))
      (decodeIntervention_encodeIntervention hi) _ _ rest
  unfold readState encodePayload
  simp only [List.flatten_cons, List.flatten_nil]
  simp only [readU64_bind, readI64_bind, readU32_bind]
  rw [if_neg h.next]
  simp only [readU64_bind, readI64_bind, readU32_bind, readBool_bind]
  rw [bind_of_ok (readSequences_write _ _)]
  simp only [readU32_bind, hhistory]
  rw [if_neg (Nat.not_lt.mpr h.history), bind_of_ok (readMany_flatMap
    (fun record hm rest => readWindowRecord_encodeWindowRecord (h.windows record hm) rest) _)]
  simp only [readU32_bind, htable]
  rw [if_neg (Nat.not_lt.mpr h.table), bind_of_ok (readMany_flatMap hrecords _)]
  rfl

/-- Checks in a row that all pass. -/
theorem forM_eq_ok {α : Type} {check : α → Status} {as : List α} :
    as.forM check = .ok () ↔ ∀ a ∈ as, check a = .ok () := by
  induction as with
  | nil => exact ⟨fun _ a ha => absurd ha List.not_mem_nil, fun _ => rfl⟩
  | cons a as ih =>
    show (check a >>= fun _ => as.forM check) = .ok () ↔ _
    rw [outcome_bind_eq_ok, List.forall_mem_cons, ← ih]
    exact ⟨fun ⟨_, ha, hrest⟩ => ⟨ha, hrest⟩, fun ⟨ha, hrest⟩ => ⟨(), ha, hrest⟩⟩

theorem validate_eq_ok {state : GovernorState} :
    state.validate = .ok () ↔ state.history.length ≤ kMaxWindowHistory ∧
      state.interventions.length ≤ kMaxInterventions ∧
        ∀ intervention ∈ state.interventions,
          intervention.id.valid ∧ intervention.intent.bounded = true := by
  have hcheck : ∀ intervention : Intervention,
      (do
        if ¬intervention.id.valid then
          fail .corruptState "restored intervention has an absent identity"
        if ¬intervention.intent.bounded then
          fail .corruptState "restored intervention carries an unbounded intent" : Status) =
        .ok () ↔ intervention.id.valid ∧ intervention.intent.bounded = true := by
    intro intervention
    rw [outcome_check_eq_ok, not_not]
    refine and_congr_right fun _ => ?_
    by_cases hb : intervention.intent.bounded = true
    · rw [if_neg (not_not.mpr hb)]
      exact ⟨fun _ => hb, fun _ => rfl⟩
    · rw [if_pos hb]
      exact ⟨nofun, fun h => absurd h hb⟩
  unfold GovernorState.validate
  rw [outcome_check_eq_ok, outcome_check_eq_ok, Nat.not_lt, Nat.not_lt, forM_eq_ok]
  simp only [hcheck]

theorem validate_of_encodable {state : GovernorState} (h : state.Encodable) :
    state.validate = .ok () :=
  validate_eq_ok.mpr ⟨h.history, h.table, fun intervention hm =>
    ⟨(h.records intervention hm).id, (h.records intervention hm).bounded⟩⟩

/-- A container of any payload, with the checksum and the length that belong to it. -/
def stateContainer (generation : StateGeneration) (payload : Text) : Text :=
  [writeU32 kStateMagic,
    writeU16 kSnapshotFormatVersion,
    writeU64 generation.value,
    writeU32 (UInt32.ofNat payload.length),
    writeU32 (crc32c payload),
    payload].flatten

theorem encodeState_eq_container (state : GovernorState) :
    encodeState state = stateContainer state.generation (encodePayload state) := rfl

/-- The header is read off its fields, whatever stands behind them. -/
theorem readStateHeader_fields {generation : StateGeneration} {length checksum : UInt32} {body : Text}
    (hbound : length.toNat ≤ kMaxJournalRecordBytes * 64) (hbody : length.toNat ≤ body.length) :
    readStateHeader ([writeU32 kStateMagic, writeU16 kSnapshotFormatVersion,
        writeU64 generation.value, writeU32 length, writeU32 checksum, body].flatten) =
      .ok ((generation, length.toNat, checksum), body) := by
  unfold readStateHeader
  simp only [List.flatten_cons, List.flatten_nil, List.append_nil, readU32_bind]
  rw [if_neg (by simp)]
  simp only [readU16_bind]
  rw [if_neg (by simp)]
  simp only [readU64_bind, readU32_bind]
  rw [if_neg (Nat.not_lt.mpr hbound)]
  simp only [readU32_bind]
  rw [bind_of_ok (get_eq_ok.mpr rfl), if_neg (Nat.not_lt.mpr hbody)]
  rfl

theorem readStateHeader_container {generation : StateGeneration} {payload : Text}
    (hsmall : payload.length < 2 ^ 32) :
    readStateHeader (stateContainer generation payload) =
      if payload.length > kMaxJournalRecordBytes * 64 then
        fail .oversizedInput "state payload exceeds the supported bound"
      else .ok ((generation, payload.length, crc32c payload), payload) := by
  have hlength : (UInt32.ofNat payload.length).toNat = payload.length :=
    UInt32.toNat_ofNat_of_lt' hsmall
  split_ifs with hbound
  · unfold readStateHeader stateContainer
    simp only [List.flatten_cons, List.flatten_nil, List.append_nil, readU32_bind]
    rw [if_neg (by simp)]
    simp only [readU16_bind]
    rw [if_neg (by simp)]
    simp only [readU64_bind, readU32_bind, hlength]
    rw [if_pos hbound]
    rfl
  · have hfields := @readStateHeader_fields generation (UInt32.ofNat payload.length)
      (crc32c payload) payload (hlength.trans_le (Nat.not_lt.mp hbound)) hlength.le
    rw [hlength] at hfields
    exact hfields

/-- A container is decoded to the fields its payload begins with, if it is within the bound, they
are valid and the generations agree. -/
theorem decodeState_container_iff {generation : StateGeneration} {payload : Text}
    {state : GovernorState} (hsmall : payload.length < 2 ^ 32) :
    decodeState (stateContainer generation payload) = .ok state ↔
      payload.length ≤ kMaxJournalRecordBytes * 64 ∧ decodeWith readState payload = .ok state ∧
        state.validate = .ok () ∧ state.generation = generation := by
  rw [decodeState_eq_ok, readStateHeader_container hsmall]
  constructor
  · rintro ⟨length, checksum, rest, hheader, -, hread, hvalid⟩
    by_cases hbound : payload.length > kMaxJournalRecordBytes * 64
    · rw [if_pos hbound] at hheader
      cases hheader
    rw [if_neg hbound] at hheader
    obtain ⟨hfields, rfl⟩ := Prod.mk.inj (Except.ok.inj hheader)
    obtain ⟨rfl, hrest⟩ := Prod.mk.inj hfields
    obtain ⟨rfl, -⟩ := Prod.mk.inj hrest
    rw [List.take_length] at hread
    exact ⟨Nat.not_lt.mp hbound, hread, hvalid, rfl⟩
  · rintro ⟨hbound, hread, hvalid, rfl⟩
    rw [if_neg (Nat.not_lt.mpr hbound)]
    refine ⟨_, _, _, rfl, ?_, ?_, hvalid⟩
    · rw [List.take_length]
    · rw [List.take_length, hread]

/-- The state is decoded as it was. -/
def GovernorState.roundTrips (state : GovernorState) : Prop :=
  decodeState (encodeState state) = .ok state

instance (state : GovernorState) : Decidable state.roundTrips :=
  inferInstanceAs (Decidable (decodeState (encodeState state) = .ok state))

theorem decodeState_encodeState {state : GovernorState} (h : state.Encodable) :
    decodeState (encodeState state) = .ok state := by
  have hbound := encodePayload_length h
  rw [encodeState_eq_container,
    decodeState_container_iff (Nat.lt_of_le_of_lt hbound (by decide))]
  refine ⟨hbound, ?_, validate_of_encodable h, rfl⟩
  rw [decodeWith, readState_encodePayload h]
  rfl

/-! ### What a reader yields -/

/-- Whatever a reader reads has a property. -/
def Yields {α : Type} (reader : Reader α) (P : α → Prop) : Prop :=
  ∀ bytes a rest, reader bytes = .ok (a, rest) → P a

section Yields

variable {α β : Type} {P : β → Prop} {Q : α → Prop}

theorem yields_pure {b : β} (h : P b) : Yields (pure b : Reader β) P := by
  intro bytes a rest hr
  rw [(Prod.mk.inj (pure_eq_ok.mp hr)).1]
  exact h

theorem yields_bind {reader : Reader α} {f : α → Reader β} (hr : Yields reader Q)
    (hf : ∀ a, Q a → Yields (f a) P) : Yields (reader >>= f) P := by
  intro bytes b rest h
  obtain ⟨a, mid, ha, hb⟩ := bind_eq_ok.mp h
  exact hf a (hr _ _ _ ha) _ _ _ hb

theorem yields_any {reader : Reader α} {f : α → Reader β} (hf : ∀ a, Yields (f a) P) :
    Yields (reader >>= f) P :=
  yields_bind (Q := fun _ => True) (fun _ _ _ _ => trivial) fun a _ => hf a

theorem yields_check {c : Prop} [Decidable c] {code : ErrorCode} {detail : String}
    {k : PUnit → Reader β} {later : Reader β} (h : ¬c → Yields later P) :
    Yields (if c then liftM (fail code detail : Outcome PUnit) >>= k else later) P := by
  intro bytes b rest hr
  obtain ⟨hc, hlater⟩ := check_eq_ok.mp hr
  exact h hc _ _ _ hlater

theorem yields_readMany {one : Reader α} (h : Yields one Q) (count : ℕ) :
    Yields (readMany one count) fun as => as.length = count ∧ ∀ a ∈ as, Q a := by
  induction count with
  | zero => exact yields_pure ⟨rfl, fun a ha => absurd ha List.not_mem_nil⟩
  | succ count ih =>
    refine yields_bind h fun a ha => yields_bind ih fun rest hrest => yields_pure ⟨?_, ?_⟩
    · rw [List.length_cons, hrest.1]
    · exact List.forall_mem_cons.mpr ⟨ha, hrest.2⟩

end Yields

theorem yields_readStr (maxChars : ℕ) :
    Yields (readStr maxChars) fun text => text.length ≤ maxChars := by
  unfold readStr
  dsimp only
  refine yields_any fun declared => yields_check fun hmax => yields_any fun bytes =>
    yields_check fun _ => ?_
  intro bytes text rest h
  rw [(readRaw_eq_ok.mp h).1]
  exact Nat.not_lt.mp hmax

theorem yields_readNested {α : Type} {Q : α → Prop} {decode : Text → Outcome α}
    (h : ∀ bytes a, decode bytes = .ok a → Q a) (oversized truncated : String) :
    Yields (readNested decode oversized truncated) Q := by
  unfold readNested
  dsimp only
  refine yields_any fun length => yields_check fun _ => yields_any fun bytes =>
    yields_check fun _ => yields_any fun bytes => yields_bind (Q := Q) ?_ fun a ha =>
      yields_any fun _ => yields_pure ha
  intro rest a left hd
  cases hr : decode (List.take length.toNat bytes) with
  | error error =>
    rw [hr] at hd
    cases hd
  | ok found =>
    rw [hr] at hd
    rw [← (Prod.mk.inj (Except.ok.inj hd)).1]
    exact h _ _ hr

theorem decodeWith_yields {α : Type} {Q : α → Prop} {reader : Reader α} (h : Yields reader Q)
    {bytes : Text} {a : α} (hd : decodeWith reader bytes = .ok a) : Q a := by
  unfold decodeWith at hd
  cases hr : reader bytes with
  | error error =>
    rw [hr] at hd
    cases hd
  | ok result =>
    rw [hr] at hd
    obtain rfl := Except.ok.inj hd
    exact h _ _ _ hr

/-! ### What was decoded can be encoded -/

/-- The lists of an intent are within their bounds. -/
structure MitigationIntent.ListsBounded (intent : MitigationIntent) : Prop where
  penalized : intent.penalizedSenders.length ≤ kMaxPenalizedSenders
  affected : intent.affectedClasses.length ≤ kServiceClassCount

theorem yields_readIntent : Yields readIntent MitigationIntent.ListsBounded := by
  unfold readIntent
  dsimp only
  iterate 24 refine yields_any fun _ => ?_
  refine yields_any fun penalized => yields_check fun hpenalized => ?_
  refine yields_bind (yields_readMany (Q := fun _ => True) (fun _ _ _ _ => trivial) _) fun senders hs => ?_
  refine yields_any fun affected => yields_check fun haffected => ?_
  refine yields_bind (yields_readMany (Q := fun _ => True) (fun _ _ _ _ => trivial) _) fun classes hc => ?_
  iterate 9 refine yields_any fun _ => ?_
  refine yields_check fun _ => yields_pure ⟨?_, ?_⟩
  · exact hs.1.trans_le (Nat.not_lt.mp hpenalized)
  · exact hc.1.trans_le (Nat.not_lt.mp haffected)

/-- The lists and the detail of a record are within their bounds. -/
structure Intervention.ListsBounded (intervention : Intervention) : Prop where
  intent : intervention.intent.ListsBounded
  detail : intervention.refusalDetail.length ≤ kMaxIdentifierChars * 8

theorem yields_readIntervention : Yields readIntervention Intervention.ListsBounded := by
  unfold readIntervention
  dsimp only
  iterate 21 refine yields_any fun _ => ?_
  refine yields_bind (yields_readStr _) fun detail hd => ?_
  refine yields_bind (yields_readNested (fun bytes intent h =>
    decodeWith_yields yields_readIntent h) _ _) fun intent hi => ?_
  exact yields_any fun _ => yields_check fun _ => yields_pure ⟨hi, hd⟩

theorem yields_readState :
    Yields readState fun state => state.nextInterventionGeneration.value ≠ 0 ∧
      ∀ intervention ∈ state.interventions, intervention.ListsBounded := by
  unfold readState
  dsimp only
  iterate 13 refine yields_any fun _ => ?_
  refine yields_any fun next => yields_check fun hnext => ?_
  iterate 10 refine yields_any fun _ => ?_
  refine yields_any fun _ => yields_any fun _ => yields_check fun _ => yields_any fun _ => ?_
  refine yields_any fun _ => yields_check fun _ => ?_
  refine yields_bind (yields_readMany (yields_readNested (fun bytes intervention h =>
    decodeWith_yields yields_readIntervention h) _ _) _) fun table ht => ?_
  exact yields_pure ⟨hnext, ht.2⟩

/-! ### The flags that are not stored -/

/-- Basis points as they are read back. -/
def BasisPoints.stored (bp : BasisPoints) : BasisPoints := { bp with clamped := false }

def MitigationIntent.stored (intent : MitigationIntent) : MitigationIntent :=
  { intent with
    reductionBp := intent.reductionBp.stored
    admissionReductionBp := intent.admissionReductionBp.stored
    aggregateReductionBp := intent.aggregateReductionBp.stored }

def Intervention.stored (intervention : Intervention) : Intervention :=
  { intervention with
    intent := intervention.intent.stored
    appliedReductionBp := intervention.appliedReductionBp.stored }

def WindowRecord.stored (record : WindowRecord) : WindowRecord :=
  { record with
    oversubscriptionBp := record.oversubscriptionBp.stored
    queuePressureBp := record.queuePressureBp.stored }

def GovernorState.stored (state : GovernorState) : GovernorState :=
  { state with
    history := state.history.map WindowRecord.stored
    interventions := state.interventions.map Intervention.stored }

theorem encodeState_stored (state : GovernorState) :
    encodeState state.stored = encodeState state := by
  have hpayload : encodePayload state.stored = encodePayload state := by
    simp only [encodePayload, GovernorState.stored, List.length_map, List.flatMap_map]
    rfl
  unfold encodeState
  rw [hpayload]
  rfl

/-- A state is decoded as it was exactly when it can be encoded. -/
theorem roundTrips_iff {state : GovernorState} : state.roundTrips ↔ state.Encodable := by
  refine ⟨fun h => ?_, decodeState_encodeState⟩
  obtain ⟨length, checksum, rest, -, -, hread, hvalid⟩ := decodeState_eq_ok.mp h
  obtain ⟨hnext, hlists⟩ := decodeWith_yields yields_readState hread
  obtain ⟨hhistory, htable, hrecords⟩ := validate_eq_ok.mp hvalid
  have hstored : state.stored.Encodable := by
    refine ⟨hnext, ?_, ?_, fun record hm => ?_, fun intervention hm => ?_⟩
    · exact (List.length_map _).trans_le hhistory
    · exact (List.length_map _).trans_le htable
    · obtain ⟨record, _, rfl⟩ := List.mem_map.mp hm
      exact ⟨rfl, rfl⟩
    · obtain ⟨source, hsource, rfl⟩ := List.mem_map.mp hm
      have hsound := hrecords source hsource
      have hbounded := hlists source hsource
      exact ⟨hsound.1, hsound.2, ⟨rfl, rfl, rfl, hbounded.intent.penalized,
        hbounded.intent.affected⟩, rfl, hbounded.detail⟩
  -- the encoding is the one of the stored state, so it is decoded to that one
  have hdecoded := decodeState_encodeState hstored
  rw [encodeState_stored, h] at hdecoded
  rw [Except.ok.inj hdecoded]
  exact hstored

instance (state : GovernorState) : Decidable state.Encodable :=
  decidable_of_iff state.roundTrips roundTrips_iff

end IncastGovernor
