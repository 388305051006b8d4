import IncastGovernor.Core.Locality
import IncastGovernor.Durable.RoundTrip
import IncastGovernor.Governor.Operations

/-! The decoders and surplus bytes. The decoders of an intent and of an intervention check that
they end at the end of their bytes. The one of a state checks it neither for the container nor
for the payload: what follows the fields is accepted as long as the length bound admits it. -/

namespace IncastGovernor

open Codec

/-! ### The nested decoders -/

theorem local_readIdentity : Local readIdentity :=
  local_bind local_readU64 fun _ => local_bind local_readU64 fun _ =>
    local_bind local_readU64 fun _ => local_pure _

theorem strict_readIntent : Strict readIntent := by
  unfold readIntent
  dsimp only
  iterate 2 refine strict_bind (local_readEnum _ _) fun _ => ?_
  iterate 14 refine strict_bind local_readU64 fun _ => ?_
  iterate 3 refine strict_bind local_readI64 fun _ => ?_
  iterate 3 refine strict_bind local_readU32 fun _ => ?_
  refine strict_bind local_readU64 fun _ => ?_
  refine strict_bind local_readU32 fun _ => strict_bind local_readU32 fun _ => strict_check ?_
  refine strict_bind (local_readMany local_readIdentity _) fun _ => ?_
  refine strict_bind local_readU32 fun _ => strict_check ?_
  refine strict_bind (local_readMany (local_readEnum _ _) _) fun _ => ?_
  iterate 7 refine strict_bind local_readU64 fun _ => ?_
  exact strict_bind local_readU16 fun _ => strict_end

/-- What a nested decoder reads: a length, and bytes of that length that it decodes. -/
theorem readNested_eq_ok {α : Type} {decode : Text → Outcome α} {oversized truncated : String}
    {bytes rest : Text} {a : α} (h : readNested decode oversized truncated bytes = .ok (a, rest)) :
    ∃ nested, nested.length ≤ kMaxJournalRecordBytes ∧ decode nested = .ok a ∧
      bytes = (writeU32 (UInt32.ofNat nested.length) ++ nested) ++ rest := by
  unfold readNested at h
  simp only [bind_eq_ok, check_eq_ok, get_eq_ok, pure_eq_ok, readU32_eq_ok, readRaw_eq_ok,
    liftM_eq_ok] at h
  obtain ⟨length, more, rfl, hbound, _, _, hget, -, _, _, hget', _, _, ⟨value, hd, hvalue⟩, raw,
    left, ⟨hsize, hmid⟩, hend⟩ := h
  obtain ⟨rfl, rfl⟩ := Prod.mk.inj hget
  obtain ⟨rfl, rfl⟩ := Prod.mk.inj hget'
  obtain ⟨rfl, rfl⟩ := Prod.mk.inj hvalue
  obtain ⟨rfl, rfl⟩ := Prod.mk.inj hend
  rw [hmid, ← hsize, List.take_left] at hd
  refine ⟨raw, hsize.trans_le (Nat.not_lt.mp hbound), hd, ?_⟩
  rw [hsize, UInt32.ofNat_toNat, hmid, List.append_assoc]

theorem local_readNested {α : Type} (decode : Text → Outcome α) (oversized truncated : String) :
    Local (readNested decode oversized truncated) := by
  intro bytes a rest h more
  obtain ⟨nested, hlength, hd, rfl⟩ := readNested_eq_ok h
  rw [List.append_assoc]
  exact readNested_write hlength hd oversized truncated (rest ++ more)

theorem strict_readIntervention : Strict readIntervention := by
  unfold readIntervention
  dsimp only
  iterate 6 refine strict_bind local_readU64 fun _ => ?_
  refine strict_bind (local_readEnum _ _) fun _ => ?_
  iterate 6 refine strict_bind local_readU64 fun _ => ?_
  iterate 4 refine strict_bind local_readI64 fun _ => ?_
  iterate 3 refine strict_bind local_readU32 fun _ => ?_
  refine strict_bind (local_readEnum _ _) fun _ => strict_bind (local_readStr _) fun _ => ?_
  exact strict_bind (local_readNested _ _ _) fun _ => strict_end

/-! ### The state -/

theorem local_readWindowRecord : Local readWindowRecord := by
  unfold readWindowRecord
  iterate 2 refine local_bind local_readU64 fun _ => ?_
  iterate 2 refine local_bind local_readI64 fun _ => ?_
  iterate 2 refine local_bind (local_readEnum _ _) fun _ => ?_
  iterate 3 refine local_bind local_readU32 fun _ => ?_
  exact local_bind local_readBool fun _ => local_pure _

theorem local_readSequences : Local readSequences := by
  unfold readSequences
  iterate 8 refine local_bind local_readU64 fun _ => ?_
  exact local_pure _

theorem local_readState : Local readState := by
  unfold readState
  dsimp only
  iterate 7 refine local_bind local_readU64 fun _ => ?_
  refine local_bind local_readI64 fun _ => ?_
  iterate 3 refine local_bind local_readU64 fun _ => ?_
  iterate 2 refine local_bind local_readU32 fun _ => ?_
  refine local_bind local_readU64 fun _ => local_check ?_
  iterate 2 refine local_bind local_readBool fun _ => ?_
  refine local_bind local_readU32 fun _ => local_bind local_readBool fun _ => ?_
  refine local_bind local_readI64 fun _ => ?_
  iterate 2 refine local_bind local_readU32 fun _ => ?_
  refine local_bind local_readU64 fun _ => local_bind local_readBool fun _ => ?_
  refine local_bind local_readU64 fun _ => local_bind local_readSequences fun _ => ?_
  refine local_bind local_readU32 fun _ => local_check ?_
  refine local_bind (local_readMany local_readWindowRecord _) fun _ => ?_
  refine local_bind local_readU32 fun _ => local_check ?_
  exact local_bind (local_readMany (local_readNested _ _ _) _) fun _ => local_pure _

/-! ### Containers -/

theorem local_readStateHeader : Local readStateHeader := by
  unfold readStateHeader
  dsimp only
  refine local_bind local_readU32 fun _ => local_check (local_bind local_readU16 fun _ => ?_)
  refine local_check (local_bind local_readU64 fun _ => local_bind local_readU32 fun _ => ?_)
  exact local_check (local_bind local_readU32 fun _ => local_remaining (local_pure _))

theorem readStateHeader_length {bytes rest : Text} {generation : StateGeneration} {length : ℕ}
    {checksum : UInt32} (h : readStateHeader bytes = .ok ((generation, length, checksum), rest)) :
    length ≤ rest.length := by
  unfold readStateHeader at h
  simp only [bind_eq_ok, check_eq_ok, get_eq_ok, pure_eq_ok] at h
  obtain ⟨_, _, -, -, _, _, -, -, _, _, -, _, _, -, -, _, _, -, _, _, hget, hlength, hend⟩ := h
  obtain ⟨rfl, rfl⟩ := Prod.mk.inj hget
  obtain ⟨hheader, rfl⟩ := Prod.mk.inj hend
  obtain ⟨-, hrest⟩ := Prod.mk.inj hheader
  rw [(Prod.mk.inj hrest).1]
  exact Nat.not_lt.mp hlength

/-- A container is decoded whatever follows it. -/
theorem decodeState_append {bytes : Text} {state : GovernorState}
    (h : decodeState bytes = .ok state) (more : Text) :
    decodeState (bytes ++ more) = .ok state := by
  obtain ⟨length, checksum, rest, hheader, hsum, hread, hvalid⟩ := decodeState_eq_ok.mp h
  have htake : (rest ++ more).take length = rest.take length :=
    List.take_append_of_le_length (readStateHeader_length hheader)
  refine decodeState_eq_ok.mpr ⟨length, checksum, rest ++ more,
    local_readStateHeader _ _ _ hheader more, ?_, ?_, hvalid⟩
  · rw [htake, hsum]
  · rw [htake, hread]

/-! ### The three decoders -/

inductive StateDecoder where
  | intent | intervention | state
  deriving DecidableEq

namespace StateDecoder

def Value : StateDecoder → Type
  | .intent => MitigationIntent
  | .intervention => Intervention
  | .state => GovernorState

def encode : (decoder : StateDecoder) → decoder.Value → Text
  | .intent => encodeIntent
  | .intervention => encodeIntervention
  | .state => encodeState

def decode : (decoder : StateDecoder) → Text → Outcome decoder.Value
  | .intent => decodeIntent
  | .intervention => decodeIntervention
  | .state => decodeState

/-- The decoder refuses the bytes. -/
def refuses (decoder : StateDecoder) (bytes : Text) : Prop :=
  ∃ error, decoder.decode bytes = .error error

theorem not_refuses_of_ok {decoder : StateDecoder} {bytes : Text} {v : decoder.Value}
    (h : decoder.decode bytes = .ok v) : ¬decoder.refuses bytes := by
  rintro ⟨error, he⟩
  rw [h] at he
  cases he

/-- Bytes behind those a decoder accepts are refused by all but the one of a state. -/
theorem refuses_append_iff {decoder : StateDecoder} {bytes : Text} {v : decoder.Value}
    (h : decoder.decode bytes = .ok v) {more : Text} (hmore : more ≠ []) :
    decoder.refuses (bytes ++ more) ↔ decoder ≠ .state := by
  cases decoder with
  | intent => exact iff_of_true (decodeWith_append_error strict_readIntent h hmore) (by decide)
  | intervention =>
    exact iff_of_true (decodeWith_append_error strict_readIntervention h hmore) (by decide)
  | state => exact iff_of_false (not_refuses_of_ok (decodeState_append h more)) fun hn => hn rfl

/-- A container whose payload begins with the fields of a state is refused exactly where it is past
the length bound, the fields are not valid or the generations disagree. -/
theorem refuses_container_iff {generation : StateGeneration} {payload surplus : Text}
    {fields : GovernorState} (hsmall : payload.length < 2 ^ 32)
    (hread : readState payload = .ok (fields, surplus)) :
    StateDecoder.state.refuses (stateContainer generation payload) ↔
      kMaxJournalRecordBytes * 64 < payload.length ∨ fields.validate ≠ .ok () ∨
        fields.generation ≠ generation := by
  have hdecode : ∀ state : GovernorState, decodeWith readState payload = .ok state ↔
      state = fields := by
    intro state
    unfold decodeWith
    rw [hread]
    exact ⟨fun h => (Except.ok.inj h).symm, fun h => h ▸ rfl⟩
  have hiff := fun state => @decodeState_container_iff generation payload state hsmall
  constructor
  · rintro ⟨error, he⟩
    by_contra hnot
    push Not at hnot
    have hok := (hiff fields).mpr ⟨hnot.1, (hdecode fields).mpr rfl, hnot.2.1, hnot.2.2⟩
    exact @not_refuses_of_ok .state _ _ hok ⟨error, he⟩
  · intro hfails
    cases hd : decodeState (stateContainer generation payload) with
    | error error => exact ⟨error, hd⟩
    | ok state =>
      obtain ⟨hbound, hstate, hvalid, hgeneration⟩ := (hiff state).mp hd
      obtain rfl := (hdecode state).mp hstate
      rcases hfails with hlt | hinvalid | hdiffers
      · exact absurd hbound (Nat.not_le.mpr hlt)
      · exact absurd hvalid hinvalid
      · exact absurd hgeneration hdiffers

/-- Surplus bytes are refused behind an encoding by all decoders but the one of a state, and inside
the payload of a container exactly where the container is refused for its bound, its fields or its
generation. -/
theorem refuses_surplus_iff {decoder : StateDecoder} {v decoded : decoder.Value} {more : Text}
    (hv : decoder.decode (decoder.encode v) = .ok decoded) (hmore : more ≠ [])
    {generation : StateGeneration} {payload surplus : Text} {fields : GovernorState}
    (hsmall : payload.length < 2 ^ 32) (hread : readState payload = .ok (fields, surplus)) :
    (decoder.refuses (decoder.encode v ++ more) ↔ decoder ≠ .state) ∧
      (StateDecoder.state.refuses (stateContainer generation payload) ↔
        kMaxJournalRecordBytes * 64 < payload.length ∨ fields.validate ≠ .ok () ∨
          fields.generation ≠ generation) :=
  ⟨refuses_append_iff hv hmore, refuses_container_iff hsmall hread⟩

/-- The state of a fresh governor. -/
def freshState : GovernorState := (Governor.create Governor.sampleConfig).state

theorem freshState_encodable : freshState.Encodable :=
  ⟨by decide, Nat.zero_le _, Nat.zero_le _, fun _ h => (List.not_mem_nil h).elim,
    fun _ h => (List.not_mem_nil h).elim⟩

/-- One byte behind an encoded intent, and one inside the container of a fresh state. -/
theorem refuses_surplus_sample :
    (StateDecoder.intent.refuses (encodeIntent {} ++ [0]) ↔ StateDecoder.intent ≠ .state) ∧
      (StateDecoder.state.refuses
          (stateContainer freshState.generation (encodePayload freshState ++ [0])) ↔
        kMaxJournalRecordBytes * 64 < (encodePayload freshState ++ [0]).length ∨
          freshState.validate ≠ .ok () ∨ freshState.generation ≠ freshState.generation) := by
  have hread := local_readState _ _ _ (readState_encodePayload freshState_encodable) [0]
  have hintent : decodeIntent (encodeIntent {}) = .ok {} :=
    decodeIntent_encodeIntent ⟨rfl, rfl, rfl, Nat.zero_le _, Nat.zero_le _⟩
  have hsmall : (encodePayload freshState ++ [0]).length < 2 ^ 32 := by decide +kernel
  exact @refuses_surplus_iff .intent _ _ _ hintent (by decide) _ _ _ _ hsmall hread

/-- A byte behind the container of a fresh state is not refused. -/
theorem state_decoder_accepts_surplus :
    ¬((∀ (decoder : StateDecoder) (v decoded : decoder.Value) (more : Text),
          decoder.decode (decoder.encode v) = .ok decoded → more ≠ [] →
            decoder.refuses (decoder.encode v ++ more)) ∧
        ∀ (generation : StateGeneration) (payload surplus : Text) (fields : GovernorState),
          payload.length < 2 ^ 32 → readState payload = .ok (fields, surplus) → surplus ≠ [] →
            StateDecoder.state.refuses (stateContainer generation payload)) := by
  rintro ⟨hbehind, -⟩
  have hdecoded := decodeState_encodeState freshState_encodable
  have haccepted : decodeState (encodeState freshState ++ [0]) = .ok freshState :=
    decodeState_append hdecoded [0]
  exact @not_refuses_of_ok .state _ _ haccepted
    (hbehind .state freshState freshState [0] hdecoded (by decide))

end StateDecoder

end IncastGovernor
