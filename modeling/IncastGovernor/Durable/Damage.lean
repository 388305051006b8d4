import IncastGovernor.Core.Checksum
import IncastGovernor.Durable.Flags
import IncastGovernor.Durable.TornTail

/-! A flipped bit in the last commit of a journal. The magic, the version, the checksum and
the payload are each guarded, so that a flip there stops the replay; the type is under no
checksum, and two of its flips make a commit a record of another type, which the replay
passes over. -/

namespace IncastGovernor

open Codec Foundation

/-! ### What is decoded of a damaged record -/

/-- The flips that make the type of a commit that of another record. -/
def turnsType (position : ℕ) (bit : Fin 8) : Prop := position = 6 ∧ (bit = 1 ∨ bit = 2)

instance (position : ℕ) (bit : Fin 8) : Decidable (turnsType position bit) := by
  delta turnsType; infer_instance

section Record

variable {type type' : JournalRecordType} {payload payload' rest : Text} {position : ℕ}
  {bit : Fin 8}

theorem encodeJournalRecord_ne_nil (type : JournalRecordType) (payload : Text) :
    encodeJournalRecord type payload ≠ [] := by
  intro hnil
  have hlen := encodeJournalRecord_length type payload
  rw [hnil, kJournalRecordHeaderBytes, List.length_nil] at hlen
  omega

theorem flip_typeCode {type' : JournalRecordType} (hlt : position < 2)
    (h : flipBit (writeU16 JournalRecordType.stateCommit.code) position bit =
      writeU16 type'.code) :
    turnsType (position + 6) bit ∧ type' ≠ .stateCommit := by
  have hall : ∀ position : Fin 2, ∀ bit : Fin 8, ∀ type' ∈ JournalRecordType.all,
      flipBit (writeU16 JournalRecordType.stateCommit.code) position bit = writeU16 type'.code →
        turnsType (position + 6) bit ∧ type' ≠ .stateCommit := by
    decide +kernel
  exact hall ⟨position, hlt⟩ bit type' (by cases type' <;> decide) h

/-- The checksum and the payload of a record are of no record of that length after a flip. -/
theorem flip_body_ne (hlt : position < 4 + payload.length)
    (hsame : payload.length = payload'.length) :
    flipBit (writeU32 (crc32c payload) ++ payload) position bit ≠
      writeU32 (crc32c payload') ++ (payload' ++ rest) := by
  intro h
  have hsumLength := (writeU32_length (crc32c payload)).trans
    (writeU32_length (crc32c payload')).symm
  rcases flipBit_append_eq hsumLength h with ⟨hin, hsum, hbehind⟩ | ⟨hbefore, hsum, h⟩
  · rw [← List.append_nil payload] at hbehind
    obtain ⟨rfl, -⟩ := List.append_inj hbehind hsame
    exact flipBit_ne hin hsum
  · rw [writeU32_length] at hbefore h
    rw [← List.append_nil (flipBit payload _ bit)] at h
    obtain ⟨hflip, -⟩ := List.append_inj h (by rw [flipBit_length, hsame])
    have heq := writeU32_inj hsum
    rw [← hflip] at heq
    exact crc32c_flipBit_ne (by omega) bit heq.symm

/-- A record decoded where a commit was damaged, other than in its length, has the commit's
payload and another type. -/
theorem decode_flipped (hpayload : payload.length < 2 ^ 32)
    (hlt : position < (encodeJournalRecord .stateCommit payload).length)
    (hfield : position < 8 ∨ 12 ≤ position)
    (h : flipBit (encodeJournalRecord .stateCommit payload) position bit =
      encodeJournalRecord type' payload' ++ rest)
    (hmax : payload'.length ≤ kMaxJournalRecordBytes) :
    turnsType position bit ∧ type' ≠ .stateCommit ∧ payload' = payload ∧ rest = [] := by
  have hlen' := payload_length_toNat hmax
  have hlen : (UInt32.ofNat payload.length).toNat = payload.length :=
    UInt32.toNat_ofNat_of_lt' hpayload
  rw [encodeJournalRecord_length, kJournalRecordHeaderBytes] at hlt
  simp only [encodeJournalRecord, List.append_assoc] at h
  rcases flipBit_append_eq rfl h with ⟨hin, hmagic, -⟩ | ⟨hmagic, -, h⟩
  · exact absurd hmagic (flipBit_ne hin)
  rw [writeU32_length] at hmagic h
  rcases flipBit_append_eq rfl h with ⟨hin, hversion, -⟩ | ⟨hversion, -, h⟩
  · exact absurd hversion (flipBit_ne hin)
  rw [writeU16_length] at hversion h
  have htypeLength := (writeU16_length JournalRecordType.stateCommit.code).trans
    (writeU16_length type'.code).symm
  rcases flipBit_append_eq htypeLength h with ⟨hin, htype, hbehind⟩ | ⟨hbefore, -, h⟩
  · obtain ⟨hlength, hbehind⟩ := writeU32_append_inj.mp hbehind
    obtain ⟨-, hbehind⟩ := writeU32_append_inj.mp hbehind
    have hsame : payload.length = payload'.length := by rw [← hlen, ← hlen', hlength]
    rw [← List.append_nil payload] at hbehind
    obtain ⟨hpay, hrest⟩ := List.append_inj hbehind hsame
    obtain ⟨hturns, hne⟩ := flip_typeCode hin htype
    have hposition : position - 4 - 2 + 6 = position := by omega
    exact ⟨hposition ▸ hturns, hne, hpay.symm, hrest.symm⟩
  rw [writeU16_length] at hbefore h
  have hlengthLength := (writeU32_length (UInt32.ofNat payload.length)).trans
    (writeU32_length (UInt32.ofNat payload'.length)).symm
  rcases flipBit_append_eq hlengthLength h with ⟨hin, -, -⟩ | ⟨hbefore, hlength, h⟩
  · -- the length field is left out
    rw [writeU32_length] at hin
    omega
  have hsame : payload.length = payload'.length := by
    rw [← hlen, ← hlen', writeU32_inj hlength]
  rw [writeU32_length] at hbefore h
  exact absurd h (flip_body_ne (by omega) hsame)

/-- A flip elsewhere, or in a record past the bound, leaves nothing that is decoded. -/
theorem decode_flipped_error (hpayload : payload.length < 2 ^ 32)
    (hlt : position < (encodeJournalRecord .stateCommit payload).length)
    (hfield : position < 8 ∨ 12 ≤ position)
    (hstops : ¬turnsType position bit ∨ kMaxJournalRecordBytes < payload.length) :
    ∃ error, journalDecoder.decode
      (flipBit (encodeJournalRecord .stateCommit payload) position bit) = .error error := by
  cases hd : journalDecoder.decode
    (flipBit (encodeJournalRecord .stateCommit payload) position bit) with
  | error error => exact ⟨error, rfl⟩
  | ok result =>
    obtain ⟨⟨type', payload'⟩, rest⟩ := result
    obtain ⟨hbytes, hmax⟩ := decodeJournalRecord_iff.mp hd
    obtain ⟨hturns, -, rfl, -⟩ := decode_flipped hpayload hlt hfield hbytes hmax
    rcases hstops with hstops | hstops
    · exact absurd hturns hstops
    · exact absurd hmax (Nat.not_le.mpr hstops)

/-- A flip in the type leaves a record of another type. -/
theorem decode_turned (hturns : turnsType position bit)
    (hmax : payload.length ≤ kMaxJournalRecordBytes) :
    ∃ type', type' ≠ JournalRecordType.stateCommit ∧ journalDecoder.decode
      (flipBit (encodeJournalRecord .stateCommit payload) position bit) =
        .ok ((type', payload), []) := by
  have hrecord : ∀ type', flipBit (encodeJournalRecord .stateCommit payload) position bit =
      encodeJournalRecord type' payload →
        journalDecoder.decode (flipBit (encodeJournalRecord .stateCommit payload) position bit) =
          .ok ((type', payload), []) := by
    intro type' h
    refine decodeJournalRecord_iff.mpr ⟨?_, hmax⟩
    rw [h, List.append_nil]
  obtain ⟨rfl, rfl | rfl⟩ := hturns
  · exact ⟨.policyChange, by decide, hrecord _ rfl⟩
  · exact ⟨.checkpoint, by decide, hrecord _ rfl⟩

/-- A record past the bound is not decoded, whatever is behind it. -/
theorem decode_oversized (hpayload : payload.length < 2 ^ 32)
    (hmax : kMaxJournalRecordBytes < payload.length) (behind : Text) :
    ∃ error, journalDecoder.decode (encodeJournalRecord type payload ++ behind) =
      .error error := by
  cases hd : journalDecoder.decode (encodeJournalRecord type payload ++ behind) with
  | error error => exact ⟨error, rfl⟩
  | ok result =>
    obtain ⟨⟨type', payload'⟩, rest⟩ := result
    obtain ⟨hbytes, hmax'⟩ := decodeJournalRecord_iff.mp hd
    simp only [encodeJournalRecord, List.append_assoc, writeU32_append_inj,
      writeU16_append_inj] at hbytes
    obtain ⟨-, -, -, hlength, -⟩ := hbytes
    have hlen : (UInt32.ofNat payload.length).toNat = payload.length :=
      UInt32.toNat_ofNat_of_lt' hpayload
    have hsame : payload.length = payload'.length := by
      rw [← hlen, ← payload_length_toNat hmax', hlength]
    exact absurd hmax' (by omega)

end Record

/-! ### The replay of a damaged journal -/

/-- The commits of some payloads. -/
def commits (payloads : List Text) : List (JournalRecordType × Text) :=
  payloads.map fun payload => (.stateCommit, payload)

section Journal

variable {earlier : List Text} {payload more : Text} {position : ℕ} {bit : Fin 8}

theorem readJournal_journalOf_append (records : List (JournalRecordType × Text))
    (hmax : (journalOf records ++ more).length ≤ kMaxFileBytes) :
    readJournal (journalOf records ++ more) =
      .ok (journalDecoder.records (FramedDecoder.log encodeRecord records ++ more)) := by
  unfold readJournal
  rw [if_neg (Nat.not_lt.mpr hmax), journalOf, List.append_assoc, if_neg,
    ← encodeJournalHeader_length, List.drop_left]
  push Not
  refine ⟨?_, ?_⟩
  · rw [List.length_append, encodeJournalHeader_length]
    exact Nat.le_add_right _ _
  · rw [List.take_append_of_le_length (by decide)]
    decide

theorem payload_length_le {record : JournalRecordType × Text}
    {records : List (JournalRecordType × Text)} (hm : record ∈ records) :
    record.2.length ≤ (journalOf records).length := by
  have hone : (encodeRecord record).length ≤ (FramedDecoder.log encodeRecord records).length := by
    obtain ⟨front, back, rfl⟩ := List.append_of_mem hm
    rw [FramedDecoder.log, List.flatMap_append, List.flatMap_cons, List.length_append,
      List.length_append]
    omega
  rw [encodeRecord, encodeJournalRecord_length] at hone
  rw [journalOf_length]
  omega

theorem journalOf_commits_concat :
    journalOf (commits (earlier ++ [payload])) =
      journalOf (commits earlier) ++ encodeJournalRecord .stateCommit payload := by
  rw [journalOf, journalOf, commits, List.map_append, FramedDecoder.log, List.flatMap_append,
    List.append_assoc]
  simp [commits, FramedDecoder.log, encodeRecord]

/-- Behind records within the bound everything is replayed. -/
theorem readJournal_behind {records : List (JournalRecordType × Text)}
    (hfits : ∀ record ∈ records, record.2.length ≤ kMaxJournalRecordBytes)
    (hmax : (journalOf records ++ more).length ≤ kMaxFileBytes) :
    readJournal (journalOf records ++ more) =
      .ok (records ++ (journalDecoder.records more).1, (journalDecoder.records more).2) := by
  rw [readJournal_journalOf_append records hmax,
    journalDecoder.records_log_append (decode_encodeRecord hfits)]

/-- A record past the bound stops the replay. -/
theorem flagged_oversized {records : List (JournalRecordType × Text)}
    (hover : ∃ record ∈ records, kMaxJournalRecordBytes < record.2.length)
    (hmax : (journalOf records ++ more).length ≤ kMaxFileBytes) :
    journalFlagged (journalOf records ++ more) := by
  have hsmall : ∀ record ∈ records, record.2.length < 2 ^ 32 := by
    intro record hm
    have hle := payload_length_le hm
    have hbound : kMaxFileBytes < 2 ^ 32 := by decide
    rw [List.length_append] at hmax
    omega
  have hne : ∀ record, encodeRecord record ≠ [] := fun record =>
    encodeJournalRecord_ne_nil record.1 record.2
  have hstop := @FramedDecoder.records_log_stopped _ _ _ journalDecoder encodeRecord records hne
    ?_ ?_ more
  · rw [journalFlagged, readJournal_journalOf_append records hmax]
    exact Or.inl hstop
  · intro record hm
    by_cases hrecord : record.2.length ≤ kMaxJournalRecordBytes
    · exact Or.inl fun rest => decodeJournalRecord_iff.mpr ⟨rfl, hrecord⟩
    · exact Or.inr (decode_oversized (hsmall record hm) (Nat.not_le.mp hrecord))
  · obtain ⟨record, hm, hover⟩ := hover
    exact ⟨record, hm, [], decode_oversized (hsmall record hm) hover []⟩

/-- A journal with one bit of its last commit flipped. -/
def flippedJournal (earlier : List Text) (payload : Text) (position : ℕ) (bit : Fin 8) : Text :=
  flipBit (journalOf (commits (earlier ++ [payload])))
    ((journalOf (commits earlier)).length + position) bit

theorem flippedJournal_eq (earlier : List Text) (payload : Text) (position : ℕ) (bit : Fin 8) :
    flippedJournal earlier payload position bit = journalOf (commits earlier) ++
      flipBit (encodeJournalRecord .stateCommit payload) position bit := by
  rw [flippedJournal, journalOf_commits_concat, flipBit_append_right (Nat.le_add_right _ _),
    Nat.add_sub_cancel_left]

theorem flippedJournal_length (earlier : List Text) (payload : Text) (position : ℕ)
    (bit : Fin 8) :
    (flippedJournal earlier payload position bit).length =
      (journalOf (commits (earlier ++ [payload]))).length := flipBit_length _ _ _

theorem commits_fit (earlier : List Text) :
    (∀ record ∈ commits earlier, record.2.length ≤ kMaxJournalRecordBytes) ∨
      ∃ record ∈ commits earlier, kMaxJournalRecordBytes < record.2.length := by
  by_cases h : ∀ record ∈ commits earlier, record.2.length ≤ kMaxJournalRecordBytes
  · exact Or.inl h
  · push Not at h
    exact Or.inr h

theorem flagged_of_error {records : List (JournalRecordType × Text)}
    (hfits : ∀ record ∈ records, record.2.length ≤ kMaxJournalRecordBytes) (hne : more ≠ [])
    (herror : ∃ error, journalDecoder.decode more = .error error)
    (hmax : (journalOf records ++ more).length ≤ kMaxFileBytes) :
    journalFlagged (journalOf records ++ more) := by
  obtain ⟨error, he⟩ := herror
  rw [journalFlagged, readJournal_behind hfits hmax, journalDecoder.records_error hne he]
  exact Or.inl (Option.some_ne_none _)

theorem last_payload_lt
    (hmax : (journalOf (commits (earlier ++ [payload]))).length ≤ kMaxFileBytes) :
    payload.length < 2 ^ 32 := by
  have hm : (JournalRecordType.stateCommit, payload) ∈ commits (earlier ++ [payload]) := by
    simp [commits]
  exact Nat.lt_of_le_of_lt (Nat.le_trans (payload_length_le hm) hmax) (by decide)

theorem flipped_ne_nil : flipBit (encodeJournalRecord .stateCommit payload) position bit ≠ [] := by
  rw [← List.length_pos_iff, flipBit_length, List.length_pos_iff]
  exact encodeJournalRecord_ne_nil _ _

/-- A flip outside of the length that does not turn the type is seen. -/
theorem journal_flipped_flagged
    (hmax : (journalOf (commits (earlier ++ [payload]))).length ≤ kMaxFileBytes)
    (hlt : position < (encodeJournalRecord .stateCommit payload).length)
    (hfield : position < 8 ∨ 12 ≤ position) (hturns : ¬turnsType position bit) :
    journalFlagged (flippedJournal earlier payload position bit) := by
  have hpayload := last_payload_lt hmax
  rw [← flippedJournal_length earlier payload position bit, flippedJournal_eq] at hmax
  rw [flippedJournal_eq]
  rcases commits_fit earlier with hfits | hover
  · exact flagged_of_error hfits flipped_ne_nil
      (decode_flipped_error hpayload hlt hfield (Or.inl hturns)) hmax
  · exact flagged_oversized hover hmax

/-- A turned commit within the bound is read as a record of another type. -/
theorem readJournal_turned
    (hfits : ∀ record ∈ commits earlier, record.2.length ≤ kMaxJournalRecordBytes)
    (hturns : turnsType position bit) (hrecord : payload.length ≤ kMaxJournalRecordBytes)
    (hmax : (journalOf (commits earlier) ++
      flipBit (encodeJournalRecord .stateCommit payload) position bit).length ≤ kMaxFileBytes) :
    ∃ type', type' ≠ JournalRecordType.stateCommit ∧ readJournal (journalOf (commits earlier) ++
      flipBit (encodeJournalRecord .stateCommit payload) position bit) =
        .ok (commits earlier ++ [(type', payload)], none) := by
  obtain ⟨type', hne, hdecode⟩ := decode_turned hturns hrecord
  refine ⟨type', hne, ?_⟩
  rw [readJournal_behind hfits hmax, journalDecoder.records_ok hdecode,
    journalDecoder.records_nil]

/-- A journal whose last commit is turned reads as one without that commit, unless its replay
stops: then it stopped before, and had not got to that commit. -/
theorem journal_turned
    (hmax : (journalOf (commits (earlier ++ [payload]))).length ≤ kMaxFileBytes)
    (hturns : turnsType position bit) :
    (journalStates (flippedJournal earlier payload position bit) =
          journalStates (journalOf (commits earlier)) ∧
        (journalFlagged (flippedJournal earlier payload position bit) ↔
          journalFlagged (journalOf (commits earlier)))) ∨
      (journalFlagged (flippedJournal earlier payload position bit) ∧
        (journalFlagged (journalOf (commits earlier)) ∨
          journalStates (journalOf (commits (earlier ++ [payload]))) =
            journalStates (journalOf (commits earlier)))) := by
  have hpayload := last_payload_lt hmax
  have hflipped := hmax
  rw [← flippedJournal_length earlier payload position bit, flippedJournal_eq] at hflipped
  rw [journalOf_commits_concat] at hmax
  have hbefore : (journalOf (commits earlier) ++ []).length ≤ kMaxFileBytes := by
    rw [List.append_nil]
    rw [List.length_append] at hmax
    omega
  rw [flippedJournal_eq, journalOf_commits_concat, ← List.append_nil (journalOf (commits earlier)),
    List.append_assoc, List.append_assoc, List.nil_append, List.nil_append]
  rcases commits_fit earlier with hfits | hover
  · have hnone : readJournal (journalOf (commits earlier) ++ []) =
        .ok (commits earlier, none) := by
      rw [readJournal_behind hfits hbefore, journalDecoder.records_nil, List.append_nil]
    by_cases hrecord : payload.length ≤ kMaxJournalRecordBytes
    · refine Or.inl ?_
      obtain ⟨type', hne, hread⟩ := readJournal_turned hfits hturns hrecord hflipped
      have hpassed : committedState (type', payload) = none := if_neg hne
      constructor
      · rw [journalStates, journalStates, hread, hnone]
        simp [hpassed]
      · rw [journalFlagged, journalFlagged, hread, hnone]
        simp [undecodable, hne]
    · have hover := Nat.not_le.mp hrecord
      have hlt : position < (encodeJournalRecord .stateCommit payload).length := by
        rw [hturns.1, encodeJournalRecord_length, kJournalRecordHeaderBytes]
        omega
      have hfield : position < 8 ∨ 12 ≤ position := Or.inl (by rw [hturns.1]; decide)
      refine Or.inr ⟨?_, Or.inr ?_⟩
      · exact flagged_of_error hfits flipped_ne_nil
          (decode_flipped_error hpayload hlt hfield (Or.inr hover)) hflipped
      · obtain ⟨error, he⟩ := @decode_oversized .stateCommit payload hpayload hover []
        rw [List.append_nil] at he
        rw [journalStates, journalStates, hnone, readJournal_behind hfits hmax,
          journalDecoder.records_error (encodeJournalRecord_ne_nil _ _) he]
        simp
  · exact Or.inr ⟨flagged_oversized hover hflipped, Or.inl (flagged_oversized hover hbefore)⟩

end Journal

/-! ### A damaged file of a directory -/

/-- The directory with other bytes in one of its journals. -/
def Directory.rewrite (directory : Directory) (index : UInt64) (content : Text) : Directory :=
  directory.setJournal index { synced := content }

/-- A journal of a directory, between those before it and those after. -/
structure JournalAt (directory : Directory) (before : JournalFiles) (index : UInt64)
    (file : DurableFile) (after : JournalFiles) : Prop where
  journals : directory.journals = before ++ (index, file) :: after

theorem exists_journalAt {directory : Directory} {index : UInt64} {file : DurableFile}
    (h : directory.journal index = some file) :
    ∃ before after, JournalAt directory before index file after := by
  obtain ⟨⟨found, file'⟩, hfind, rfl⟩ := Option.map_eq_some_iff.mp h
  obtain ⟨hfound, before, after, hjournals, -⟩ := List.find?_eq_some_iff_append.mp hfind
  obtain rfl := of_decide_eq_true hfound
  exact ⟨before, after, ⟨hjournals⟩⟩

namespace JournalAt

variable {directory : Directory} {before after : JournalFiles} {index : UInt64}
  {file : DurableFile}

theorem before_lt (h : JournalAt directory before index file after) :
    ∀ entry ∈ before, entry.1 < index := by
  have hasc := directory.ascending
  rw [h.journals, List.pairwise_append] at hasc
  exact fun entry hm => hasc.2.2 entry hm _ List.mem_cons_self

theorem rewrite (h : JournalAt directory before index file after) (content : Text) :
    JournalAt (directory.rewrite index content) before index { synced := content } after := by
  constructor
  show putJournal index _ directory.journals = _
  rw [h.journals, putJournal_replace h.before_lt]

/-- The states behind a journal's replace those before. -/
theorem state (h : JournalAt directory before index file after) :
    directory.state = lastState (lastState
      (lastState {} (snapshotStates directory.snapshot ++ filesStates before))
      (journalStates file.content)) (filesStates after) := by
  rw [Directory.state, h.journals, filesStates_append, filesStates_cons, ← List.append_assoc,
    ← List.append_assoc, lastState_append, lastState_append]

theorem flagged (h : JournalAt directory before index file after) :
    directory.flagged ↔ (∃ entry ∈ before ++ after, journalFlagged entry.2.content) ∨
      journalFlagged file.content := by
  rw [Directory.flagged, h.journals]
  constructor
  · rintro ⟨entry, hm, hflag⟩
    rcases List.mem_append.mp hm with hm | hm
    · exact Or.inl ⟨entry, List.mem_append_left after hm, hflag⟩
    · rcases List.mem_cons.mp hm with rfl | hm
      · exact Or.inr hflag
      · exact Or.inl ⟨entry, List.mem_append_right before hm, hflag⟩
  · rintro (⟨entry, hm, hflag⟩ | hflag)
    · refine ⟨entry, ?_, hflag⟩
      rcases List.mem_append.mp hm with hm | hm
      · exact List.mem_append_left _ hm
      · exact List.mem_append_right before (List.mem_cons_of_mem _ hm)
    · exact ⟨_, List.mem_append_right before List.mem_cons_self, hflag⟩

theorem length (h : JournalAt directory before index file after) (content : Text) :
    (directory.rewrite index content).journals.length = directory.journals.length := by
  rw [(h.rewrite content).journals, h.journals, List.length_append, List.length_append]
  rfl

theorem rewrite_state (h : JournalAt directory before index file after) (content : Text) :
    (directory.rewrite index content).state = lastState (lastState
      (lastState {} (snapshotStates directory.snapshot ++ filesStates before))
      (journalStates content)) (filesStates after) := by
  rw [(h.rewrite content).state, DurableFile.content, List.append_nil]
  rfl

theorem rewrite_flagged (h : JournalAt directory before index file after) (content : Text) :
    (directory.rewrite index content).flagged ↔
      (∃ entry ∈ before ++ after, journalFlagged entry.2.content) ∨ journalFlagged content := by
  rw [(h.rewrite content).flagged, DurableFile.content, List.append_nil]

end JournalAt

section Flip

variable {store : DurableStore} {directory damaged : Directory} {index : UInt64}
  {file : DurableFile} {earlier : List Text} {payload : Text} {position : ℕ} {bit : Fin 8}

/-- Damage to a directory is noticed: its recovery gives the state there was, or reports the
damage. -/
def NoticesDamage (store : DurableStore) (directory damaged : Directory) : Prop :=
  ∃ report report', (store.recover directory true).1 = .ok report ∧
    (store.recover damaged true).1 = .ok report' ∧
      (report'.state = report.state ∨ report'.flagged)

theorem noticesDamage_iff (hopen : store.isOpen = true)
    (hfew : damaged.journals.length * kMaxFileBytes < 2 ^ 64) :
    NoticesDamage store directory damaged ↔
      clearAuthority damaged.state = clearAuthority directory.state ∨ damaged.flagged := by
  have hreport := recover_listed hopen directory
  have hreport' := recover_listed hopen damaged
  rw [← recover_state hreport, ← recover_state hreport', ← recover_flagged hfew hreport']
  constructor
  · rintro ⟨report, report', h, h', hnoticed⟩
    rw [hreport] at h
    rw [hreport'] at h'
    rw [Except.ok.inj h, Except.ok.inj h']
    exact hnoticed
  · exact fun hnoticed => ⟨_, _, hreport, hreport', hnoticed⟩

/-- A flip that makes a commit go by in silence: it turns the type of the last record of a
journal that is read, no other record gives a sign, and the state is another one without that
commit. -/
structure SkipsCommit (directory : Directory) (index : UInt64) (earlier : List Text)
    (payload : Text) (position : ℕ) (bit : Fin 8) : Prop where
  turns : turnsType position bit
  read : (journalOf (commits (earlier ++ [payload]))).length ≤ kMaxFileBytes
  silent : ¬(directory.rewrite index (journalOf (commits earlier))).flagged
  lost : clearAuthority (directory.rewrite index (journalOf (commits earlier))).state ≠
    clearAuthority directory.state

/-- A flipped bit in the last commit of a journal, other than in its length, is noticed unless
it makes the commit go by in silence. -/
theorem flip_noticed_iff (hopen : store.isOpen = true)
    (hfew : directory.journals.length * kMaxFileBytes < 2 ^ 64)
    (hjournal : directory.journal index = some file)
    (hcontent : file.content = journalOf (commits (earlier ++ [payload])))
    (hlt : position < (encodeJournalRecord .stateCommit payload).length)
    (hfield : position < 8 ∨ 12 ≤ position) :
    NoticesDamage store directory
        (directory.rewrite index (flippedJournal earlier payload position bit)) ↔
      ¬SkipsCommit directory index earlier payload position bit := by
  obtain ⟨before, after, hat⟩ := exists_journalAt hjournal
  have hstate := hat.state
  rw [hcontent] at hstate
  rw [noticesDamage_iff hopen (by rw [hat.length]; exact hfew)]
  by_cases hread : (journalOf (commits (earlier ++ [payload]))).length ≤ kMaxFileBytes
  · by_cases hturns : turnsType position bit
    · have hskips : SkipsCommit directory index earlier payload position bit ↔
          ¬(directory.rewrite index (journalOf (commits earlier))).flagged ∧
            clearAuthority (directory.rewrite index (journalOf (commits earlier))).state ≠
              clearAuthority directory.state :=
        ⟨fun h => ⟨h.silent, h.lost⟩, fun h => ⟨hturns, hread, h.1, h.2⟩⟩
      rw [hskips, ← not_or, not_not]
      rcases @journal_turned earlier payload position bit hread hturns with
        ⟨hstates, hflags⟩ | ⟨hflagged, hbefore⟩
      · rw [hat.rewrite_flagged, hat.rewrite_flagged, hflags, hat.rewrite_state, hstates,
          ← hat.rewrite_state]
        exact or_comm
      · refine iff_of_true (Or.inr ((hat.rewrite_flagged _).mpr (Or.inr hflagged))) ?_
        rcases hbefore with hbefore | hbefore
        · exact Or.inl ((hat.rewrite_flagged _).mpr (Or.inr hbefore))
        · refine Or.inr (congrArg clearAuthority ?_)
          rw [hstate, hat.rewrite_state, hbefore]
    · have hflagged := @journal_flipped_flagged earlier payload position bit hread hlt hfield hturns
      exact iff_of_true (Or.inr ((hat.rewrite_flagged _).mpr (Or.inr hflagged)))
        fun h => hturns h.turns
  · -- neither file is read
    refine iff_of_true (Or.inl (congrArg clearAuthority ?_)) fun h => hread h.read
    have hunread : ∀ content : Text, kMaxFileBytes < content.length →
        journalStates content = [] := by
      intro content hover
      rw [journalStates, readJournal, if_pos hover]
    rw [hstate, hat.rewrite_state, hunread _ (Nat.not_le.mp hread), hunread]
    rw [flippedJournal_length]
    exact Nat.not_le.mp hread

end Flip

/-- A state on its way into a journal. -/
def committedPayload : Text := encodeState { generation := ⟨7⟩ }

def committedDirectory : Directory where
  journals := [(1, { synced := journalOf (commits [committedPayload]) })]
  ascending := List.pairwise_singleton _ _

/-- One bit of the type makes a recovery forget the only commit, with a clean report. -/
theorem type_flip_drops_commit :
    committedDirectory.journal 1 = some { synced := journalOf (commits [committedPayload]) } ∧
      6 < (encodeJournalRecord .stateCommit committedPayload).length ∧
      ¬NoticesDamage { isOpen := true } committedDirectory
        (committedDirectory.rewrite 1 (flippedJournal [] committedPayload 6 1)) := by
  refine ⟨rfl, by rw [encodeJournalRecord_length, kJournalRecordHeaderBytes]; omega, ?_⟩
  rintro ⟨report, report', h, h', hnoticed⟩
  rw [recover_listed rfl] at h h'
  obtain rfl := Except.ok.inj h
  obtain rfl := Except.ok.inj h'
  revert hnoticed
  decide +kernel

/-- A flip in the payload of the same commit is noticed. -/
theorem flip_noticed_iff_payload :
    NoticesDamage { isOpen := true } committedDirectory
        (committedDirectory.rewrite 1 (flippedJournal [] committedPayload 16 0)) ↔
      ¬SkipsCommit committedDirectory 1 [] committedPayload 16 0 :=
  flip_noticed_iff rfl (by decide) rfl (List.append_nil _)
    (by decide +kernel) (by decide)

end IncastGovernor
