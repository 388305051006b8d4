import IncastGovernor.Durable.Recovery

/-! The signs of damage in a report: an ambiguous tail, a rejected record, discarded bytes.
They are counted in words, of which the files that a recovery reads are far too few to
make one wrap: so a report has a sign exactly when a journal stops its replay or holds a
commit that is no state. -/

namespace IncastGovernor

/-- A report that tells of damage. -/
def RecoveryReport.flagged (report : RecoveryReport) : Prop :=
  report.journalTailAmbiguous = true ∨ report.journalRecordsRejected ≠ 0 ∨
    report.journalTailBytesDiscarded ≠ 0

instance (report : RecoveryReport) : Decidable report.flagged := by
  delta RecoveryReport.flagged; infer_instance

/-- A commit whose payload is no state. -/
def undecodable (record : JournalRecordType × Text) : Prop :=
  record.1 = .stateCommit ∧ committedState record = none

/-- A journal whose replay stops, or meets a commit that is no state. -/
def journalFlagged (content : Text) : Prop :=
  match readJournal content with
  | .error _ => False
  | .ok (records, tail) => tail ≠ none ∨ ∃ record ∈ records, undecodable record

def Directory.flagged (directory : Directory) : Prop :=
  ∃ entry ∈ directory.journals, journalFlagged entry.2.content

namespace RecoveryReport

/-- The counters of damage are at most some number. -/
structure Within (bound : ℕ) (report : RecoveryReport) : Prop where
  rejected : report.journalRecordsRejected.toNat ≤ bound
  discarded : report.journalTailBytesDiscarded.toNat ≤ bound

variable {report : RecoveryReport} {bound : ℕ}

theorem Within.mono (h : Within bound report) {more : ℕ} (hle : bound ≤ more) :
    Within more report := ⟨Nat.le_trans h.rejected hle, Nat.le_trans h.discarded hle⟩

/-- A report with the same signs. -/
theorem Within.same (h : Within bound report) {report' : RecoveryReport} {more : ℕ}
    (hle : bound ≤ more)
    (hrejected : report'.journalRecordsRejected = report.journalRecordsRejected)
    (hdiscarded : report'.journalTailBytesDiscarded = report.journalTailBytesDiscarded)
    (hambiguous : report'.journalTailAmbiguous = report.journalTailAmbiguous)
    {sign : Prop} (hsign : ¬sign) :
    Within more report' ∧ (report'.flagged ↔ report.flagged ∨ sign) := by
  refine ⟨⟨?_, ?_⟩, ?_⟩
  · rw [hrejected]
    exact Nat.le_trans h.rejected hle
  · rw [hdiscarded]
    exact Nat.le_trans h.discarded hle
  · rw [or_iff_left hsign, flagged, hrejected, hdiscarded, hambiguous]
    rfl

/-- A counter with room left is not zero behind an addition. -/
theorem add_count {count : UInt64} {amount : ℕ} (hroom : count.toNat + amount < 2 ^ 64) :
    (count + UInt64.ofNat amount).toNat = count.toNat + amount := by
  rw [UInt64.toNat_add, UInt64.toNat_ofNat']
  have hamount : amount % 2 ^ 64 = amount := Nat.mod_eq_of_lt (by omega)
  rw [hamount]
  exact Nat.mod_eq_of_lt hroom

theorem ne_zero_iff {count : UInt64} : count ≠ 0 ↔ 0 < count.toNat := by
  rw [Nat.pos_iff_ne_zero]
  exact not_congr UInt64.toNat_inj.symm

/-- One record: the rejected ones are those that are no state. -/
theorem applyRecord_within (h : Within bound report) (hroom : bound + 1 < 2 ^ 64)
    (record : JournalRecordType × Text) :
    Within (bound + 1) (report.applyRecord record) ∧
      ((report.applyRecord record).flagged ↔ report.flagged ∨ undecodable record) := by
  have hone := @add_count report.journalRecordsRejected 1 (by have := h.rejected; omega)
  by_cases hc : record.1 = .stateCommit
  · cases hd : decodeState record.2 with
    | error error =>
      have hundecodable : undecodable record := by
        refine ⟨hc, ?_⟩
        rw [committedState, if_pos hc, hd]
        rfl
      have happly : (report.applyRecord record) =
          { report with
            journalRecordsApplied := report.journalRecordsApplied + 1
            journalRecordsRejected := report.journalRecordsRejected + 1 } := by
        unfold applyRecord
        rw [if_pos hc, hd]
      rw [happly]
      refine ⟨⟨?_, Nat.le_succ_of_le h.discarded⟩, iff_of_true ?_ (Or.inr hundecodable)⟩
      · exact hone.le.trans (Nat.succ_le_succ h.rejected)
      · refine Or.inr (Or.inl (ne_zero_iff.mpr ?_))
        exact hone.symm ▸ Nat.succ_pos _
    | ok state =>
      have hdecodable : ¬undecodable record := by
        rintro ⟨-, hnone⟩
        rw [committedState, if_pos hc, hd] at hnone
        cases hnone
      have happly : (report.applyRecord record) =
          { report with
            journalRecordsApplied := report.journalRecordsApplied + 1
            state
            recoveredCommittedState := true } := by
        unfold applyRecord
        rw [if_pos hc, hd]
      rw [happly]
      refine h.same (Nat.le_succ _) ?_ ?_ ?_ hdecodable <;> rfl
  · have happly : (report.applyRecord record) =
        { report with journalRecordsApplied := report.journalRecordsApplied + 1 } := by
      unfold applyRecord
      rw [if_neg hc]
    rw [happly]
    have hother : ¬undecodable record := fun hu => hc hu.1
    refine h.same (Nat.le_succ _) ?_ ?_ ?_ hother <;> rfl

theorem foldl_applyRecord_within {records : List (JournalRecordType × Text)}
    (h : Within bound report) (hroom : bound + records.length < 2 ^ 64) :
    Within (bound + records.length) (records.foldl applyRecord report) ∧
      ((records.foldl applyRecord report).flagged ↔
        report.flagged ∨ ∃ record ∈ records, undecodable record) := by
  induction records generalizing report bound with
  | nil => exact ⟨h, (or_iff_left (by simp)).symm⟩
  | cons record rest ih =>
    rw [List.length_cons] at hroom
    obtain ⟨hwithin, hflagged⟩ := applyRecord_within h (by omega) record
    obtain ⟨hrest, hall⟩ := ih hwithin (by omega)
    refine ⟨hrest.mono (by rw [List.length_cons]; omega), ?_⟩
    rw [List.foldl_cons, hall, hflagged, List.exists_mem_cons_iff, or_assoc]

/-- A replay that stops leaves a sign. -/
theorem applyTail_within (h : Within bound report) {error : Error} {tail : Text}
    (hne : tail ≠ []) (hroom : bound + tail.length < 2 ^ 64) :
    Within (bound + tail.length) (report.applyTail error tail) ∧
      (report.applyTail error tail).flagged := by
  have hpos : 0 < tail.length := List.length_pos_of_ne_nil hne
  have hdiscard := @add_count report.journalTailBytesDiscarded tail.length
    (by have := h.discarded; omega)
  have hreject := @add_count report.journalRecordsRejected 1 (by have := h.rejected; omega)
  have hrejected := h.rejected
  have hdiscarded := h.discarded
  unfold applyTail
  simp only
  split_ifs
  · refine ⟨⟨Nat.le_trans hrejected (Nat.le_add_right _ _), ?_⟩, Or.inr (Or.inr ?_)⟩
    · show (report.journalTailBytesDiscarded + UInt64.ofNat tail.length).toNat ≤ _
      omega
    · show report.journalTailBytesDiscarded + UInt64.ofNat tail.length ≠ 0
      rw [ne_zero_iff]
      omega
  · refine ⟨⟨Nat.le_trans hrejected (Nat.le_add_right _ _), ?_⟩, Or.inl rfl⟩
    show (report.journalTailBytesDiscarded + UInt64.ofNat tail.length).toNat ≤ _
    omega
  · refine ⟨⟨?_, Nat.le_trans hdiscarded (Nat.le_add_right _ _)⟩, Or.inr (Or.inl ?_)⟩
    · show (report.journalRecordsRejected + UInt64.ofNat 1).toNat ≤ _
      omega
    · show report.journalRecordsRejected + UInt64.ofNat 1 ≠ 0
      rw [ne_zero_iff]
      omega

/-- One journal: a file that is read takes no more than its bytes from the room of the
counters. -/
theorem applyJournal_within (h : Within bound report) (hroom : bound + kMaxFileBytes < 2 ^ 64)
    (entry : UInt64 × DurableFile) :
    Within (bound + kMaxFileBytes) (report.applyJournal entry) ∧
      ((report.applyJournal entry).flagged ↔
        report.flagged ∨ journalFlagged entry.2.content) := by
  have hread : ∀ records tail, readJournal entry.2.content = .ok (records, tail) →
      records.length + (tail.elim 0 fun stop => stop.2.length) ≤ kMaxFileBytes ∧
        ∀ stop, tail = some stop → stop.2 ≠ [] := by
    intro records tail hr
    unfold readJournal at hr
    split_ifs at hr with hmax hheader
    have hpair := Except.ok.inj hr
    obtain ⟨hlen, hstop⟩ :=
      journalDecoder.records_length_le (entry.2.content.drop kJournalFileHeaderBytes)
    rw [hpair] at hlen hstop
    refine ⟨hlen.trans ?_, hstop⟩
    rw [List.length_drop]
    omega
  unfold applyJournal journalFlagged
  cases hr : readJournal entry.2.content with
  | error fault =>
    cases fault <;> refine h.same (Nat.le_add_right _ _) ?_ ?_ ?_ not_false <;> rfl
  | ok replay =>
    obtain ⟨records, tail⟩ := replay
    obtain ⟨hlen, hstop⟩ := hread records tail hr
    cases tail with
    | none =>
      have hlength : records.length ≤ kMaxFileBytes := hlen
      obtain ⟨hwithin, hflagged⟩ := @foldl_applyRecord_within report bound records h (by omega)
      refine ⟨hwithin.mono (Nat.add_le_add_left hlength _), hflagged.trans (or_congr_right ?_)⟩
      simp
    | some stop =>
      have hlength : records.length + stop.2.length ≤ kMaxFileBytes := hlen
      obtain ⟨hwithin, -⟩ := @foldl_applyRecord_within report bound records h (by omega)
      obtain ⟨htail, hflagged⟩ := @applyTail_within _ _ hwithin stop.1 stop.2 (hstop stop rfl)
        (by omega)
      refine ⟨htail.mono (by omega), iff_of_true hflagged (Or.inr (Or.inl ?_))⟩
      exact Option.some_ne_none stop

theorem foldl_applyJournal_within {journals : JournalFiles} (h : Within bound report)
    (hroom : bound + journals.length * kMaxFileBytes < 2 ^ 64) :
    (journals.foldl applyJournal report).flagged ↔
      report.flagged ∨ ∃ entry ∈ journals, journalFlagged entry.2.content := by
  induction journals generalizing report bound with
  | nil => exact (or_iff_left (by simp)).symm
  | cons entry rest ih =>
    rw [List.length_cons, Nat.succ_mul] at hroom
    obtain ⟨hwithin, hflagged⟩ := applyJournal_within h (by omega) entry
    rw [List.foldl_cons, ih hwithin (by omega), hflagged, List.exists_mem_cons_iff, or_assoc]

theorem applySnapshot_within (snapshot : Option DurableFile) :
    Within 0 (({} : RecoveryReport).applySnapshot snapshot) ∧
      ¬(({} : RecoveryReport).applySnapshot snapshot).flagged := by
  unfold applySnapshot
  cases snapshot with
  | none => exact ⟨⟨Nat.le_refl 0, Nat.le_refl 0⟩, by decide⟩
  | some file =>
    simp only
    split_ifs
    · exact ⟨⟨Nat.le_refl 0, Nat.le_refl 0⟩, by simp [flagged, note]⟩
    · cases decodeState file.content with
      | error error => exact ⟨⟨Nat.le_refl 0, Nat.le_refl 0⟩, by simp [flagged, note]⟩
      | ok state => exact ⟨⟨Nat.le_refl 0, Nat.le_refl 0⟩, by simp [flagged]⟩

end RecoveryReport

/-- A recovery reports damage exactly when a journal of its directory has a sign of it. -/
theorem recover_flagged {store : DurableStore} {directory : Directory} {listed : Bool}
    {report : RecoveryReport} (hfew : directory.journals.length * kMaxFileBytes < 2 ^ 64)
    (h : (store.recover directory listed).1 = .ok report) :
    report.flagged ↔ directory.flagged := by
  have hby := recover_by store directory listed
  generalize store.recover directory listed = result at hby h
  cases hby with
  | refused => cases h
  | reported =>
    obtain rfl := Except.ok.inj h
    show directory.replayed.flagged ↔ directory.flagged
    obtain ⟨hwithin, hclean⟩ := RecoveryReport.applySnapshot_within directory.snapshot
    have hstart : RecoveryReport.Within 0
        { ({} : RecoveryReport).applySnapshot directory.snapshot with
          journalPresent := !directory.journals.isEmpty } := ⟨hwithin.rejected, hwithin.discarded⟩
    rw [Directory.replayed, RecoveryReport.foldl_applyJournal_within hstart (by omega)]
    exact or_iff_right hclean

end IncastGovernor
