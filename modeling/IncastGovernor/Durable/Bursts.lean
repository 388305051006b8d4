import IncastGovernor.Core.BitSerial
import IncastGovernor.Durable.Journal
import IncastGovernor.Durable.RoundTrip
import IncastGovernor.Transport.Frame

/-! Bursts in a payload. The header of a frame, a record or a container carries the checksum of
the payload that was encoded; behind it a payload that a burst has changed is refused for its
checksum and for nothing else. -/

namespace IncastGovernor

open Codec Foundation

/-- An encoding with another payload behind its header. -/
def withPayload (encoded payload damaged : Text) : Text :=
  encoded.take (encoded.length - payload.length) ++ damaged

theorem withPayload_append (header payload damaged : Text) :
    withPayload (header ++ payload) payload damaged = header ++ damaged := by
  have hheader : (header ++ payload).length - payload.length = header.length := by
    rw [List.length_append, Nat.add_sub_cancel]
  rw [withPayload, hheader, List.take_left]

section Burst

variable {payload damaged : Text}

theorem decodeFrame_burst (h : Burst 32 payload damaged) {frame : Frame} {encoded : Text}
    (hframe : frame.payload = payload) (he : encodeFrame frame = .ok encoded) :
    decodeFrame (withPayload encoded payload damaged) =
      fail .checksumMismatch "frame payload failed its integrity check" := by
  have hheader := decodeFrameHeader_encodeFrame he
  obtain ⟨hmax, hbytes⟩ := encodeFrame_eq_ok.mp he
  rw [hframe] at hbytes hheader
  obtain ⟨header, hlen, hencoded, hsum⟩ : ∃ header : Text, header.length = kFrameHeaderBytes ∧
      encoded = header ++ payload ∧ loadU32 header 16 = crc32c payload := by
    refine ⟨_, ?_, hbytes, ?_⟩
    · simp only [List.flatten_cons, List.flatten_nil, List.append_nil, List.length_append,
        writeU32_length, writeU16_length, kFrameHeaderBytes]
    · have hload := @loadU32_field [writeU32 kFrameMagic, writeU16 kWireProtocolVersion,
        writeU16 frame.type.code, writeU16 frame.flags, writeU16 0,
        writeU32 (UInt32.ofNat payload.length)] [] (crc32c payload) [] 16 rfl
      rw [List.append_nil] at hload
      exact hload
  rw [hencoded, decodeFrameHeader_append hlen.ge] at hheader
  rw [hencoded, withPayload_append, decodeFrame_of_header
    ((decodeFrameHeader_append hlen.ge damaged).trans hheader), if_neg, if_pos]
  · rw [List.drop_left' hlen, ← h.length, List.take_length,
      loadU32_append (by rw [hlen, kFrameHeaderBytes]), hsum]
    exact crc32c_burst_ne h
  · rw [List.length_append, hlen, h.length]
    exact Nat.lt_irrefl _

theorem decodeJournalRecord_burst (h : Burst 32 payload damaged) (type : JournalRecordType)
    (hmax : payload.length ≤ kMaxJournalRecordBytes) :
    decodeJournalRecord (withPayload (encodeJournalRecord type payload) payload damaged) =
      fail .checksumMismatch "journal record failed its integrity check" := by
  have hlen := payload_length_toNat hmax
  have hencoded : encodeJournalRecord type payload =
      (writeU32 kJournalRecordMagic ++ (writeU16 kJournalFormatVersion ++ (writeU16 type.code ++
        (writeU32 (UInt32.ofNat payload.length) ++ writeU32 (crc32c payload))))) ++ payload := by
    simp only [encodeJournalRecord, List.append_assoc]
  have hsize : (writeU32 kJournalRecordMagic ++ (writeU16 kJournalFormatVersion ++
      (writeU16 type.code ++ (writeU32 (UInt32.ofNat payload.length) ++
        (writeU32 (crc32c payload) ++ damaged))))).length = 16 + damaged.length := by
    simp only [List.length_append, writeU32_length, writeU16_length]
    omega
  rw [hencoded, withPayload_append]
  simp only [List.append_assoc]
  unfold decodeJournalRecord
  rw [bind_of_ok (get_eq_ok.mpr rfl), if_neg (by rw [hsize, kJournalRecordHeaderBytes]; omega)]
  simp only [readU32_bind]
  rw [if_neg (not_not.mpr rfl)]
  simp only [readU16_bind]
  rw [if_neg (not_not.mpr rfl), bind_of_ok (readRecordType_eq_ok.mpr rfl)]
  simp only [readU32_bind, hlen]
  rw [if_neg (Nat.not_lt.mpr hmax), bind_of_ok (get_eq_ok.mpr rfl),
    if_neg (Nat.not_lt.mpr h.length.ge),
    bind_of_ok (readRaw_eq_ok.mpr ⟨h.length, (List.append_nil damaged).symm⟩),
    if_pos (crc32c_burst_ne h)]
  rfl

theorem decodeState_burst (h : Burst 32 payload damaged) (generation : StateGeneration)
    (hmax : payload.length ≤ kMaxJournalRecordBytes * 64) :
    decodeState (withPayload (stateContainer generation payload) payload damaged) =
      fail .checksumMismatch "state payload failed its integrity check" := by
  have hlen : (UInt32.ofNat payload.length).toNat = payload.length :=
    UInt32.toNat_ofNat_of_lt' (Nat.lt_of_le_of_lt hmax (by decide))
  have hencoded : ∀ body : Text, [writeU32 kStateMagic, writeU16 kSnapshotFormatVersion,
      writeU64 generation.value, writeU32 (UInt32.ofNat payload.length), writeU32 (crc32c payload),
      body].flatten = [writeU32 kStateMagic, writeU16 kSnapshotFormatVersion,
        writeU64 generation.value, writeU32 (UInt32.ofNat payload.length),
        writeU32 (crc32c payload)].flatten ++ body := by
    intro body
    simp only [List.flatten_cons, List.flatten_nil, List.append_nil, List.append_assoc]
  have hheader := @readStateHeader_fields generation (UInt32.ofNat payload.length) (crc32c payload)
    damaged (hlen.trans_le hmax) (hlen.trans_le h.length.ge)
  rw [hencoded, hlen] at hheader
  unfold decodeState
  rw [stateContainer, hencoded, withPayload_append, hheader]
  show (if crc32c (damaged.take payload.length) ≠ crc32c payload then _ else _) = _
  rw [← h.length, List.take_length, if_pos (crc32c_burst_ne h)]
  rfl

/-- A burst of at most thirty-two bits in a payload is refused for the checksum by each of the
three decoders. A container holds any payload, that of a state in particular. -/
theorem burst_checksumMismatch (payload damaged : Text) (h : Burst 32 payload damaged) :
    (∀ (frame : Frame) (encoded : Text), frame.payload = payload → encodeFrame frame = .ok encoded →
      decodeFrame (withPayload encoded payload damaged) =
        fail .checksumMismatch "frame payload failed its integrity check") ∧
    (∀ type : JournalRecordType, payload.length ≤ kMaxJournalRecordBytes →
      decodeJournalRecord (withPayload (encodeJournalRecord type payload) payload damaged) =
        fail .checksumMismatch "journal record failed its integrity check") ∧
    (∀ generation : StateGeneration, payload.length ≤ kMaxJournalRecordBytes * 64 →
      decodeState (withPayload (stateContainer generation payload) payload damaged) =
        fail .checksumMismatch "state payload failed its integrity check") ∧
    ∀ state : GovernorState, encodePayload state = payload →
      payload.length ≤ kMaxJournalRecordBytes * 64 →
      decodeState (withPayload (encodeState state) payload damaged) =
        fail .checksumMismatch "state payload failed its integrity check" := by
  refine ⟨fun frame encoded hframe he => decodeFrame_burst h hframe he,
    decodeJournalRecord_burst h, decodeState_burst h, fun state hpayload hmax => ?_⟩
  rw [encodeState_eq_container, hpayload]
  exact decodeState_burst h _ hmax

/-- A burst over five of six bytes, from the fifth bit of the second one on. -/
def spreadPayload : Text := [1, 2, 3, 4, 5, 6]

def spreadDamaged : Text := [1, 0xF2, 0xFC, 0x85, 0xFA, 0x09]

theorem burst_checksumMismatch_spread :
    decodeJournalRecord (withPayload (encodeJournalRecord .stateCommit spreadPayload)
        spreadPayload spreadDamaged) =
      fail .checksumMismatch "journal record failed its integrity check" ∧
    decodeState (withPayload (stateContainer ⟨7⟩ spreadPayload) spreadPayload spreadDamaged) =
      fail .checksumMismatch "state payload failed its integrity check" := by
  have hburst : Burst 32 spreadPayload spreadDamaged := by
    refine ⟨rfl, by decide, 12, fun i hi => ?_⟩
    by_cases hlt : i < 48
    · exact (show ∀ i < 48, bitAt spreadDamaged i ≠ bitAt spreadPayload i → 12 ≤ i ∧ i < 12 + 32
        by decide) i hlt hi
    · have hpast : 6 ≤ i / 8 := by omega
      refine absurd ?_ hi
      unfold bitAt
      rw [List.getD_eq_default spreadDamaged _ hpast, List.getD_eq_default spreadPayload _ hpast]
  obtain ⟨-, hrecord, hstate, -⟩ := burst_checksumMismatch spreadPayload spreadDamaged hburst
  exact ⟨hrecord .stateCommit (by decide), hstate ⟨7⟩ (by decide)⟩

end Burst

end IncastGovernor
