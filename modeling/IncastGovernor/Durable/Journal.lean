import IncastGovernor.Durable.StateCodec
import IncastGovernor.Foundation.RecordLog

/-! The records of a journal and the journal as a file: a header, then records, each
framed by magic, version, type, length and checksum. A record is read exactly where its
encoding stands, so nothing of a torn record is taken for one. -/

namespace IncastGovernor

open Codec Foundation

inductive JournalRecordType where
  | stateCommit | interventionTransition | policyChange | authorityBinding | checkpoint | shutdown
  | epochAdvance
  deriving DecidableEq

namespace JournalRecordType

def all : List JournalRecordType :=
  [.stateCommit, .interventionTransition, .policyChange, .authorityBinding, .checkpoint, .shutdown,
    .epochAdvance]

/-- The types are numbered from one. -/
def code (type : JournalRecordType) : UInt16 := UInt16.ofNat (all.idxOf type + 1)

def ofCode (raw : UInt16) : Option JournalRecordType :=
  if raw = 0 then none else all[raw.toNat - 1]?

theorem ofCode_eq_some {raw : UInt16} {type : JournalRecordType} :
    ofCode raw = some type ↔ raw = type.code := by
  constructor
  · intro h
    unfold ofCode at h
    split_ifs at h with hzero
    obtain ⟨hlt, hget⟩ := List.getElem?_eq_some_iff.mp h
    have hpos : raw.toNat ≠ 0 := fun h0 => hzero (UInt16.toNat_inj.mp h0)
    have hidx : all.idxOf type = raw.toNat - 1 := by
      rw [← hget]
      exact List.Nodup.idxOf_getElem (by decide) _ hlt
    rw [code, hidx, Nat.sub_add_cancel (Nat.one_le_iff_ne_zero.mpr hpos), UInt16.ofNat_toNat]
  · rintro rfl
    cases type <;> decide

end JournalRecordType

/-- 'IGR1'. -/
def kJournalRecordMagic : UInt32 := 0x31524749

def kJournalRecordHeaderBytes : ℕ := 16

def encodeJournalRecord (type : JournalRecordType) (payload : Text) : Text :=
  writeU32 kJournalRecordMagic ++ (writeU16 kJournalFormatVersion ++ (writeU16 type.code ++
    (writeU32 (UInt32.ofNat payload.length) ++ (writeU32 (crc32c payload) ++ payload))))

def readRecordType : Reader JournalRecordType := do
  match JournalRecordType.ofCode (← readU16) with
  | some type => return type
  | none => fail .corruptState "journal record type is outside the known set"

/-- `decode_journal_record`: the record at the front, with the bytes behind it. -/
def decodeJournalRecord : Reader (JournalRecordType × Text) := do
  if (← get).length < kJournalRecordHeaderBytes then
    fail .truncatedInput "journal record header is incomplete"
  let magic ← readU32
  if magic ≠ kJournalRecordMagic then
    fail .corruptState "journal record magic mismatch"
  let version ← readU16
  if version ≠ kJournalFormatVersion then
    fail .unsupportedVersion "unsupported journal record version"
  let type ← readRecordType
  let length := (← readU32).toNat
  let checksum ← readU32
  if length > kMaxJournalRecordBytes then
    fail .oversizedInput "journal record exceeds the supported bound"
  if (← get).length < length then
    fail .truncatedInput "journal record payload is incomplete"
  let payload ← readRaw length
  if crc32c payload ≠ checksum then
    fail .checksumMismatch "journal record failed its integrity check"
  return (type, payload)

theorem readRecordType_eq_ok {bytes rest : Text} {type : JournalRecordType} :
    readRecordType bytes = .ok (type, rest) ↔ bytes = writeU16 type.code ++ rest := by
  unfold readRecordType
  simp only [bind_eq_ok, readU16_eq_ok]
  constructor
  · rintro ⟨raw, mid, rfl, h⟩
    cases hc : JournalRecordType.ofCode raw with
    | none =>
      rw [hc] at h
      cases h
    | some found =>
      rw [hc] at h
      obtain ⟨rfl, rfl⟩ := Prod.mk.inj (pure_eq_ok.mp h)
      rw [JournalRecordType.ofCode_eq_some.mp hc]
  · rintro rfl
    refine ⟨type.code, rest, rfl, ?_⟩
    rw [JournalRecordType.ofCode_eq_some.mpr rfl]
    rfl

theorem encodeJournalRecord_length (type : JournalRecordType) (payload : Text) :
    (encodeJournalRecord type payload).length = kJournalRecordHeaderBytes + payload.length := by
  simp only [encodeJournalRecord, List.length_append, writeU32_length, writeU16_length,
    kJournalRecordHeaderBytes]
  omega

theorem payload_length_toNat {payload : Text} (h : payload.length ≤ kMaxJournalRecordBytes) :
    (UInt32.ofNat payload.length).toNat = payload.length :=
  UInt32.toNat_ofNat_of_lt' (Nat.lt_of_le_of_lt h (by decide))

/-- A record is decoded exactly where its encoding stands. -/
theorem decodeJournalRecord_iff {bytes rest payload : Text} {type : JournalRecordType} :
    decodeJournalRecord bytes = .ok ((type, payload), rest) ↔
      bytes = encodeJournalRecord type payload ++ rest ∧ payload.length ≤ kMaxJournalRecordBytes := by
  unfold decodeJournalRecord
  simp only [bind_eq_ok, check_eq_ok, get_eq_ok, pure_eq_ok, readU32_eq_ok, readU16_eq_ok,
    readRecordType_eq_ok, readRaw_eq_ok, not_not, ne_eq]
  constructor
  · rintro ⟨_, _, hget, -, magic, _, rfl, rfl, version, _, rfl, rfl, type', _, rfl, length, _, rfl,
      checksum, _, rfl, hmax, _, _, hget', -, payload', _, ⟨hlen, rfl⟩, rfl, hend⟩
    obtain ⟨rfl, rfl⟩ := Prod.mk.inj hget'
    obtain ⟨hrecord, rfl⟩ := Prod.mk.inj hend
    obtain ⟨rfl, rfl⟩ := Prod.mk.inj hrecord
    obtain ⟨-, hbytes⟩ := Prod.mk.inj hget
    refine ⟨?_, hlen ▸ Nat.not_lt.mp hmax⟩
    have hlength : UInt32.ofNat payload.length = length := by rw [hlen, UInt32.ofNat_toNat]
    simp only [← hbytes, encodeJournalRecord, hlength, List.append_assoc]
  · rintro ⟨rfl, hmax⟩
    have hlen := payload_length_toNat hmax
    refine ⟨_, _, rfl, ?_, kJournalRecordMagic, _, ?_, rfl, kJournalFormatVersion, _, rfl, rfl, type,
      _, rfl, UInt32.ofNat payload.length, _, rfl, crc32c payload, _, rfl, ?_, _, _, rfl, ?_,
      payload, rest, ⟨?_, rfl⟩, rfl, rfl⟩
    · rw [List.length_append, encodeJournalRecord_length]
      omega
    · simp only [encodeJournalRecord, List.append_assoc]
    · rw [hlen]
      exact Nat.not_lt.mpr hmax
    · rw [hlen, List.length_append]
      omega
    · exact hlen.symm

/-- Records are decoded one by one: a record is behind no other's bytes. -/
def journalDecoder : FramedDecoder (JournalRecordType × Text) UInt8 Error where
  decode := decodeJournalRecord
  shorter := by
    rintro bytes ⟨type, payload⟩ rest h
    obtain ⟨rfl, -⟩ := decodeJournalRecord_iff.mp h
    rw [List.length_append, encodeJournalRecord_length, kJournalRecordHeaderBytes]
    omega
  local_append := by
    rintro bytes ⟨type, payload⟩ rest h more
    obtain ⟨rfl, hmax⟩ := decodeJournalRecord_iff.mp h
    exact decodeJournalRecord_iff.mpr ⟨List.append_assoc _ _ _, hmax⟩

/-- 'IGJRNL01', the version and two bytes left free. -/
def kJournalFileHeader : Text := ascii "IGJRNL01"

def kJournalFileHeaderBytes : ℕ := 12

def encodeJournalHeader : Text := kJournalFileHeader ++ (writeU16 kJournalFormatVersion ++ [0, 0])

/-- The largest file a recovery reads. -/
def kMaxFileBytes : ℕ := 2 ^ 26

/-- Why a journal is passed over. -/
inductive JournalFault where
  | unreadable | headerInvalid
  deriving DecidableEq

/-- The records of a journal, with the error and the bytes the replay stopped at. -/
abbrev Replay := List (JournalRecordType × Text) × Option (Error × Text)

def readJournal (content : Text) : Except JournalFault Replay :=
  if content.length > kMaxFileBytes then .error .unreadable
  else if content.length < kJournalFileHeaderBytes ∨
      content.take kJournalFileHeader.length ≠ kJournalFileHeader then .error .headerInvalid
  else .ok (journalDecoder.records (content.drop kJournalFileHeaderBytes))

/-- The journal ends with a whole record, or with its header. -/
def intact (content : Text) : Prop := (readJournal content).map (fun replay => replay.2) = .ok none

instance (content : Text) : Decidable (intact content) := by
  delta intact; infer_instance

/-- The state a record commits, if it commits one that can be decoded. -/
def committedState (record : JournalRecordType × Text) : Option GovernorState :=
  if record.1 = .stateCommit then (decodeState record.2).toOption else none

/-- The states of a journal, oldest first. -/
def journalStates (content : Text) : List GovernorState :=
  match readJournal content with
  | .error _ => []
  | .ok (records, _) => records.filterMap committedState

theorem intact_header : intact encodeJournalHeader ∧ journalStates encodeJournalHeader = [] := by
  decide +kernel

/-- What is appended to an intact journal is replayed behind it. -/
theorem readJournal_append {content more : Text} (h : intact content)
    (hmax : (content ++ more).length ≤ kMaxFileBytes) :
    ∃ records, readJournal content = .ok (records, none) ∧
      readJournal (content ++ more) = .ok (records ++ (journalDecoder.records more).1,
        (journalDecoder.records more).2) := by
  have hlen : content.length ≤ kMaxFileBytes := by
    rw [List.length_append] at hmax
    omega
  unfold intact readJournal at h
  rw [if_neg (Nat.not_lt.mpr hlen)] at h
  by_cases hh : content.length < kJournalFileHeaderBytes ∨
      content.take kJournalFileHeader.length ≠ kJournalFileHeader
  · rw [if_pos hh] at h
    cases h
  rw [if_neg hh] at h
  push Not at hh
  obtain ⟨hheader, hmagic⟩ := hh
  have htail : (journalDecoder.records (content.drop kJournalFileHeaderBytes)).2 = none :=
    Except.ok.inj h
  refine ⟨(journalDecoder.records (content.drop kJournalFileHeaderBytes)).1, ?_, ?_⟩
  · unfold readJournal
    rw [if_neg (Nat.not_lt.mpr hlen), if_neg (by push Not; exact ⟨hheader, hmagic⟩), ← htail]
  · have hpre : kJournalFileHeader.length ≤ content.length :=
      Nat.le_trans (by decide) hheader
    unfold readJournal
    rw [if_neg (Nat.not_lt.mpr hmax), if_neg, List.drop_append_of_le_length hheader,
      journalDecoder.records_append htail]
    push Not
    refine ⟨?_, ?_⟩
    · rw [List.length_append]
      omega
    · rw [List.take_append_of_le_length hpre, hmagic]

/-- The states of what is appended come behind those of an intact journal. -/
theorem journalStates_append_records {content more : Text} (h : intact content)
    (hmax : (content ++ more).length ≤ kMaxFileBytes) :
    journalStates (content ++ more) =
      journalStates content ++ (journalDecoder.records more).1.filterMap committedState := by
  obtain ⟨records, hc, hm⟩ := readJournal_append h hmax
  unfold journalStates
  rw [hc, hm]
  exact List.filterMap_append

section Commit

variable {content payload : Text} {state : GovernorState}

theorem decode_commit (hpayload : payload.length ≤ kMaxJournalRecordBytes) :
    journalDecoder.decode (encodeJournalRecord .stateCommit payload) =
      .ok ((.stateCommit, payload), []) :=
  decodeJournalRecord_iff.mpr ⟨(List.append_nil _).symm, hpayload⟩

/-- The states a cut append leaves: those before, and the one appended when nothing of
its record is cut. -/
theorem journalStates_append_take (h : intact content)
    (hpayload : payload.length ≤ kMaxJournalRecordBytes)
    (hmax : (content ++ encodeJournalRecord .stateCommit payload).length ≤ kMaxFileBytes)
    (hstate : decodeState payload = .ok state) (k : ℕ) :
    journalStates (content ++ (encodeJournalRecord .stateCommit payload).take k) =
        journalStates content ∨
      journalStates (content ++ (encodeJournalRecord .stateCommit payload).take k) =
        journalStates content ++ [state] := by
  have htake : (content ++ (encodeJournalRecord .stateCommit payload).take k).length ≤
      kMaxFileBytes := by
    rw [List.length_append, List.length_take] at *
    omega
  rw [journalStates_append_records h htake]
  rcases journalDecoder.records_take (decode_commit hpayload) k with hr | hr <;> rw [hr]
  · exact Or.inl (List.append_nil _)
  · refine Or.inr ?_
    have hcommitted : committedState (.stateCommit, payload) = some state := by
      rw [committedState, if_pos rfl, hstate]
      rfl
    rw [List.filterMap_cons_some hcommitted, List.filterMap_nil]

/-- A whole append leaves the journal intact and adds its state. -/
theorem journalStates_append (h : intact content)
    (hpayload : payload.length ≤ kMaxJournalRecordBytes)
    (hmax : (content ++ encodeJournalRecord .stateCommit payload).length ≤ kMaxFileBytes)
    (hstate : decodeState payload = .ok state) :
    intact (content ++ encodeJournalRecord .stateCommit payload) ∧
      journalStates (content ++ encodeJournalRecord .stateCommit payload) =
        journalStates content ++ [state] := by
  have hrecords := journalDecoder.records_ok (decode_commit hpayload)
  constructor
  · obtain ⟨records, -, hm⟩ := readJournal_append h hmax
    rw [intact, hm, hrecords]
    rfl
  · have hcommitted : committedState (.stateCommit, payload) = some state := by
      rw [committedState, if_pos rfl, hstate]
      rfl
    rw [journalStates_append_records h hmax, hrecords]
    show journalStates content ++ List.filterMap committedState [(.stateCommit, payload)] = _
    rw [List.filterMap_cons_some hcommitted, List.filterMap_nil]

end Commit

end IncastGovernor
