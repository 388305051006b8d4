import IncastGovernor.Durable.Recovery

/-! Torn journals. A journal is a header and records one behind the other; cut anywhere
behind the header it replays the records that lie wholly before the cut, whatever their
payloads look like, and the bytes behind them are discarded. A part of a record is never
taken for another fault than a truncation. -/

namespace IncastGovernor

open Codec Foundation

/-- The records of a journal file. -/
def encodeRecord (record : JournalRecordType × Text) : Text :=
  encodeJournalRecord record.1 record.2

/-- A journal with some records. -/
def journalOf (records : List (JournalRecordType × Text)) : Text :=
  encodeJournalHeader ++ FramedDecoder.log encodeRecord records

/-! ### A part of a record -/

section Torn

variable {type : JournalRecordType} {payload : Text} {k : ℕ}

/-- The fixed part of a record. -/
def recordHeader (type : JournalRecordType) (payload : Text) : Text :=
  writeU32 kJournalRecordMagic ++ (writeU16 kJournalFormatVersion ++ (writeU16 type.code ++
    (writeU32 (UInt32.ofNat payload.length) ++ writeU32 (crc32c payload))))

theorem encodeJournalRecord_eq (type : JournalRecordType) (payload : Text) :
    encodeJournalRecord type payload = recordHeader type payload ++ payload := by
  simp only [encodeJournalRecord, recordHeader, List.append_assoc]

theorem recordHeader_length (type : JournalRecordType) (payload : Text) :
    (recordHeader type payload).length = kJournalRecordHeaderBytes := by
  simp only [recordHeader, List.length_append, writeU32_length, writeU16_length,
    kJournalRecordHeaderBytes]

/-- Of a record without a whole header nothing is read. -/
theorem decode_short_header {bytes : Text} (h : bytes.length < kJournalRecordHeaderBytes) :
    decodeJournalRecord bytes = fail .truncatedInput "journal record header is incomplete" := by
  unfold decodeJournalRecord
  rw [bind_of_ok (get_eq_ok.mpr rfl), if_pos h]
  rfl

/-- A record without a whole payload is truncated. -/
theorem decode_short_payload {part : Text} (hmax : payload.length ≤ kMaxJournalRecordBytes)
    (h : part.length < payload.length) :
    decodeJournalRecord (recordHeader type payload ++ part) =
      fail .truncatedInput "journal record payload is incomplete" := by
  have hlen := payload_length_toNat hmax
  unfold decodeJournalRecord
  rw [bind_of_ok (get_eq_ok.mpr rfl), if_neg (by
    rw [List.length_append, recordHeader_length]
    omega)]
  simp only [recordHeader, List.append_assoc]
  rw [bind_of_ok (readU32_writeU32 _ _), if_neg (by simp), bind_of_ok (readU16_writeU16 _ _),
    if_neg (by simp), bind_of_ok (readRecordType_eq_ok.mpr rfl), bind_of_ok (readU32_writeU32 _ _),
    bind_of_ok (readU32_writeU32 _ _), if_neg (by rw [hlen]; omega),
    bind_of_ok (get_eq_ok.mpr rfl), if_pos (by rw [hlen]; exact h)]
  rfl

/-- A record that is cut is truncated, whatever its payload looks like. -/
theorem decode_cut_record (hmax : payload.length ≤ kMaxJournalRecordBytes)
    (hk : k < (encodeJournalRecord type payload).length) {error : Error}
    (h : decodeJournalRecord ((encodeJournalRecord type payload).take k) = .error error) :
    error.code = .truncatedInput := by
  rw [encodeJournalRecord_length] at hk
  by_cases hheader : k < kJournalRecordHeaderBytes
  · rw [decode_short_header] at h
    · rw [← Except.error.inj h]
    · rw [List.length_take]
      omega
  · rw [encodeJournalRecord_eq, List.take_append, recordHeader_length,
      List.take_of_length_le (by rw [recordHeader_length]; omega), decode_short_payload hmax] at h
    · rw [← Except.error.inj h]
    · rw [List.length_take]
      omega

end Torn

/-! ### A cut journal -/

section Cut

variable {records : List (JournalRecordType × Text)} {cut : ℕ}

/-- Where the first records of a journal end. -/
def recordEnd (records : List (JournalRecordType × Text)) (n : ℕ) : ℕ :=
  kJournalFileHeaderBytes + (FramedDecoder.log encodeRecord (records.take n)).length

/-- A report with the bytes behind the last whole record discarded: they are ambiguous when
they have room for a record's header. -/
def discardTail (remaining : ℕ) (report : RecoveryReport) : RecoveryReport :=
  if remaining = 0 then report
  else if remaining < kJournalRecordHeaderBytes then
    { report with
      journalTailBytesDiscarded :=
        report.journalTailBytesDiscarded + UInt64.ofNat remaining }.note
      (ascii "journal tail truncated mid-header; discarded")
  else
    { report with
      journalTailBytesDiscarded :=
        report.journalTailBytesDiscarded + UInt64.ofNat remaining
      journalTailAmbiguous := true }.note
      (ascii "journal tail is ambiguous; discarded rather than trusted")

theorem applyTail_truncated {error : Error} {tail : Text} (h : error.code = .truncatedInput)
    (hpos : 0 < tail.length) (report : RecoveryReport) :
    report.applyTail error tail = discardTail tail.length report := by
  unfold RecoveryReport.applyTail discardTail
  rw [if_neg (Nat.ne_of_gt hpos)]
  by_cases hshort : tail.length < kJournalRecordHeaderBytes
  · rw [if_pos ⟨h, hshort⟩, if_pos hshort]
  · rw [if_neg fun hc => hshort hc.2, if_pos (Or.inl h), if_neg hshort]

theorem decode_encodeRecord (hmax : ∀ record ∈ records, record.2.length ≤ kMaxJournalRecordBytes) :
    ∀ record ∈ records, ∀ rest,
      journalDecoder.decode (encodeRecord record ++ rest) = .ok (record, rest) := by
  rintro ⟨type, payload⟩ hm rest
  exact decodeJournalRecord_iff.mpr ⟨rfl, hmax _ hm⟩

theorem encodeJournalHeader_length : encodeJournalHeader.length = kJournalFileHeaderBytes := by
  decide

theorem journalOf_length :
    (journalOf records).length =
      kJournalFileHeaderBytes + (FramedDecoder.log encodeRecord records).length := by
  rw [journalOf, List.length_append, encodeJournalHeader_length]

/-- A journal that is cut behind its header is read up to the cut. -/
theorem readJournal_take (hfile : cut ≤ kMaxFileBytes) (hheader : kJournalFileHeaderBytes ≤ cut) :
    readJournal ((journalOf records).take cut) = .ok (journalDecoder.records
      ((FramedDecoder.log encodeRecord records).take (cut - kJournalFileHeaderBytes))) := by
  have hcontent : (journalOf records).take cut = encodeJournalHeader ++
      (FramedDecoder.log encodeRecord records).take (cut - kJournalFileHeaderBytes) := by
    rw [journalOf, List.take_append, encodeJournalHeader_length,
      List.take_of_length_le (by rw [encodeJournalHeader_length]; exact hheader)]
  have hlen : ((journalOf records).take cut).length ≤ kMaxFileBytes := by
    rw [List.length_take]
    omega
  unfold readJournal
  rw [if_neg (Nat.not_lt.mpr hlen), hcontent, if_neg, ← encodeJournalHeader_length,
    List.drop_left]
  push Not
  refine ⟨?_, ?_⟩
  · rw [List.length_append, encodeJournalHeader_length]
    exact Nat.le_add_right _ _
  · rw [List.take_append_of_le_length (by decide)]
    decide

/-- A journal that is cut anywhere behind its header replays the records that lie wholly
before the cut, in their order, and no others; the bytes behind them are discarded. -/
theorem torn_journal_replays_whole_records
    (hmax : ∀ record ∈ records, record.2.length ≤ kMaxJournalRecordBytes)
    (hfile : cut ≤ kMaxFileBytes) (hheader : kJournalFileHeaderBytes ≤ cut)
    (hcut : cut ≤ (journalOf records).length) :
    ∃ n ≤ records.length, recordEnd records n ≤ cut ∧
      (∀ m ≤ records.length, recordEnd records m ≤ cut → m ≤ n) ∧
      ∀ (report : RecoveryReport) (index : UInt64) (file : DurableFile),
        file.content = (journalOf records).take cut →
        report.applyJournal (index, file) =
          discardTail (cut - recordEnd records n)
            ((records.take n).foldl RecoveryReport.applyRecord report) := by
  have hroom : cut - kJournalFileHeaderBytes ≤ (FramedDecoder.log encodeRecord records).length := by
    rw [journalOf_length] at hcut
    omega
  have hends := FramedDecoder.log_take_wholeRecords_le encodeRecord
    (cut - kJournalFileHeaderBytes) records
  refine ⟨FramedDecoder.wholeRecords encodeRecord (cut - kJournalFileHeaderBytes) records,
    FramedDecoder.wholeRecords_le _ _ _, ?_, ?_, ?_⟩
  · unfold recordEnd
    omega
  · intro m hm hend
    apply FramedDecoder.le_wholeRecords _ hm
    unfold recordEnd at hend
    omega
  · intro report index file hcontent
    have hby := FramedDecoder.records_log_take (decode_encodeRecord hmax) hroom
    unfold RecoveryReport.applyJournal
    rw [hcontent, readJournal_take hfile hheader]
    generalize hreplay : journalDecoder.records _ = replay at hby ⊢
    unfold recordEnd
    cases hby with
    | whole hlen =>
      rw [hlen, Nat.add_sub_cancel' hheader, Nat.sub_self]
      rfl
    | torn record hrecord k error hpos hlt hlen hstopped =>
      have hcode : error.code = .truncatedInput :=
        decode_cut_record (hmax record hrecord) hlt hstopped
      have htail : ((encodeRecord record).take k).length = k := by
        rw [List.length_take]
        omega
      have hrest : cut - (kJournalFileHeaderBytes + (FramedDecoder.log encodeRecord (records.take
          (FramedDecoder.wholeRecords encodeRecord (cut - kJournalFileHeaderBytes)
            records))).length) = k := by
        omega
      show RecoveryReport.applyTail _ error ((encodeRecord record).take k) = _
      rw [applyTail_truncated hcode (by rw [htail]; exact hpos), htail, hrest]

/-- A journal whose second record carries a whole record in its payload. -/
def nestedRecords : List (JournalRecordType × Text) :=
  [(.policyChange, ascii "a"), (.shutdown, encodeJournalRecord .shutdown [])]

/-- Cut behind the record in its payload but for one byte, the second record is not replayed. -/
theorem torn_journal_replays_whole_records_nested :
    ∃ n ≤ nestedRecords.length, recordEnd nestedRecords n ≤ 60 ∧
      (∀ m ≤ nestedRecords.length, recordEnd nestedRecords m ≤ 60 → m ≤ n) ∧
      ∀ (report : RecoveryReport) (index : UInt64) (file : DurableFile),
        file.content = (journalOf nestedRecords).take 60 →
        report.applyJournal (index, file) =
          discardTail (60 - recordEnd nestedRecords n)
            ((nestedRecords.take n).foldl RecoveryReport.applyRecord report) :=
  torn_journal_replays_whole_records (by decide +kernel) (by decide) (by decide)
    (by decide +kernel)

end Cut

end IncastGovernor
