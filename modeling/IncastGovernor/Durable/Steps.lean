import IncastGovernor.Durable.Recovery

/-! What each operation of the store can do: it fails and leaves what was there, or it
takes effect in one known way. A running store serves its directory: it appends to the
last journal, and no index is past its own. -/

namespace IncastGovernor

/-! ### Files -/

/-- A file is written and published. -/
def DurableConfig.writes (config : DurableConfig) (fault : Option AtomicWriteFault) : Prop :=
  (fault.filter fun fault => config.fsyncOnCommit = true ∨ ¬fault.ofSync) = none

instance (config : DurableConfig) (fault : Option AtomicWriteFault) :
    Decidable (config.writes fault) := by
  delta DurableConfig.writes; infer_instance

/-- An append is acknowledged. -/
def DurableConfig.appends (config : DurableConfig) : Option AppendFault → Prop
  | none => True
  | some .sync => config.fsyncOnCommit = false
  | some _ => False

instance (config : DurableConfig) : DecidablePred config.appends
  | none => isTrue trivial
  | some .sync => inferInstanceAs (Decidable (config.fsyncOnCommit = false))
  | some .openFile | some (.shortWrite _) | some (.flush _) | some .close => isFalse id

/-- A file that was published with some bytes: nothing of them is lost where the store
syncs. -/
structure Published (config : DurableConfig) (bytes : Text) (file : DurableFile) : Prop where
  content : file.content = bytes
  synced : config.fsyncOnCommit = true → ∀ keep, (file.crash keep).content = bytes

section Files

variable {config : DurableConfig} {bytes : Text} {file : DurableFile}

theorem publishFile_ok {fault : Option AtomicWriteFault} (h : config.writes fault) :
    ∃ file, publishFile bytes config.fsyncOnCommit fault = .ok file ∧
      Published config bytes file := by
  unfold publishFile
  rw [h]
  refine ⟨_, rfl, ?_, fun hf keep => ?_⟩
  · cases config.fsyncOnCommit
    · exact List.nil_append _
    · exact List.append_nil _
  · rw [if_pos hf, DurableFile.crash_content, List.take_nil, List.append_nil]

theorem publishFile_error {fault : Option AtomicWriteFault} (h : ¬config.writes fault) :
    ∃ error, publishFile bytes config.fsyncOnCommit fault = .error error := by
  obtain ⟨found, hfound⟩ := Option.ne_none_iff_exists'.mp h
  unfold publishFile
  rw [hfound]
  exact ⟨found.toError, rfl⟩

/-- The file of an append that wrote its whole record. -/
def DurableConfig.appended (config : DurableConfig) (file : DurableFile) (record : Text) :
    DurableFile :=
  if config.fsyncOnCommit then (file.write record).sync else file.write record

theorem appended_content (record : Text) :
    (config.appended file record).content = file.content ++ record := by
  unfold DurableConfig.appended
  split_ifs
  · rw [DurableFile.sync_content, DurableFile.write_content]
  · exact DurableFile.write_content file record

/-- The ways through `appendFile`: some of the record is written, all of it before the close
fails, or all of it. -/
inductive AppendedBy (config : DurableConfig) (file : DurableFile) (record : Text)
    (fault : Option AppendFault) : Status × Option DurableFile → Prop
  | torn (error : Error) (n : ℕ) :
      AppendedBy config file record fault (.error error, some (file.write (record.take n)))
  | unclosed (error : Error) :
      AppendedBy config file record fault (.error error, some (config.appended file record))
  | acknowledged (h : config.appends fault) :
      AppendedBy config file record fault (.ok (), some (config.appended file record))

theorem appendFile_by (file : DurableFile) (record : Text) (fault : Option AppendFault) :
    AppendedBy config file record fault
      (appendFile (some file) record config.fsyncOnCommit fault) := by
  have hunwritten : file.write (record.take 0) = file := by
    rw [List.take_zero, DurableFile.write, List.append_nil]
  have hwhole : file.write (record.take record.length) = file.write record := by
    rw [List.take_length]
  cases fault with
  | none => exact .acknowledged trivial
  | some fault =>
    cases fault with
    | openFile =>
      have htorn := @AppendedBy.torn config file record (some .openFile)
        ⟨.ioFailure, ascii "unable to open the journal for append"⟩ 0
      rw [hunwritten] at htorn
      exact htorn
    | shortWrite n => exact .torn _ n
    | flush n =>
      unfold appendFile
      cases config.fsyncOnCommit
      · exact .torn _ n
      · exact .torn _ n
    | sync =>
      unfold appendFile
      cases hf : config.fsyncOnCommit with
      | true =>
        have htorn := @AppendedBy.torn config file record (some .sync)
          ⟨.ioFailure, ascii "failed to fsync the file"⟩ record.length
        rw [hwhole] at htorn
        exact htorn
      | false =>
        have hdone := @AppendedBy.acknowledged config file record (some .sync) hf
        rw [DurableConfig.appended, hf] at hdone
        exact hdone
    | close => exact .unclosed _

end Files

/-- What ties a running store to its directory: it appends to the last journal, if there
is one, and no index is past its own. -/
structure Serves (store : DurableStore) (directory : Directory) : Prop where
  isOpen : store.isOpen = true
  unnamed : store.journal = none → directory.journals = []
  named : ∀ index, store.journal = some index →
    ∃ others file, LastJournal directory others index file
  epoch : ∀ entry ∈ directory.journals, entry.1 ≤ store.journalEpoch

namespace DurableStore

variable {store : DurableStore} {directory : Directory} {state : GovernorState}
  {faults : CommitFaults}

/-! ### Journals and snapshots -/

/-- The store after the journal of the next index was started. -/
def rotated (store : DurableStore) : DurableStore :=
  { store with
    journalEpoch := store.journalEpoch + 1
    journal := some (store.journalEpoch + 1)
    recordsSinceSnapshot := 0 }

/-- The two ways through `rotateJournal`. -/
inductive RotatedBy (store : DurableStore) (directory : Directory)
    (fault : Option AtomicWriteFault) : Status × DurableStore × Directory → Prop
  | failed (error : Error) (h : ¬store.config.writes fault) :
      RotatedBy store directory fault
        (.error error, { store with journalEpoch := store.journalEpoch + 1 }, directory)
  | started (file : DurableFile) (header : Published store.config encodeJournalHeader file)
      (h : store.config.writes fault) :
      RotatedBy store directory fault
        (.ok (), store.rotated, directory.setJournal (store.journalEpoch + 1) file)

theorem rotateJournal_by (fault : Option AtomicWriteFault) :
    RotatedBy store directory fault (store.rotateJournal directory fault) := by
  unfold rotateJournal
  by_cases h : store.config.writes fault
  · obtain ⟨file, hfile, hpublished⟩ := @publishFile_ok _ encodeJournalHeader _ h
    simp only [hfile]
    exact .started file hpublished h
  · obtain ⟨error, herror⟩ := @publishFile_error _ encodeJournalHeader _ h
    simp only [herror]
    exact .failed error h

/-- The ways through `ensureJournal`. -/
inductive EnsuredBy (store : DurableStore) (directory : Directory)
    (fault : Option AtomicWriteFault) : Outcome UInt64 × DurableStore × Directory → Prop
  | named (index : UInt64) (h : store.journal = some index) :
      EnsuredBy store directory fault (.ok index, store, directory)
  | failed (error : Error) (h : store.journal = none) :
      EnsuredBy store directory fault
        (.error error, { store with journalEpoch := store.journalEpoch + 1 }, directory)
  | started (file : DurableFile) (header : Published store.config encodeJournalHeader file)
      (h : store.journal = none) :
      EnsuredBy store directory fault (.ok (store.journalEpoch + 1), store.rotated,
        directory.setJournal (store.journalEpoch + 1) file)

theorem ensureJournal_by (fault : Option AtomicWriteFault) :
    EnsuredBy store directory fault (store.ensureJournal directory fault) := by
  unfold ensureJournal
  cases hj : store.journal with
  | some index => exact .named index hj
  | none =>
    have hby := @rotateJournal_by store directory fault
    generalize store.rotateJournal directory fault = result at hby ⊢
    cases hby with
    | failed error => exact .failed error hj
    | started file header => exact .started file header hj

/-- The ways through `checkpoint`. -/
inductive CheckpointBy (store : DurableStore) (directory : Directory) (state : GovernorState)
    (faults : CommitFaults) : Status × DurableStore × Directory → Prop
  | refused (error : Error) :
      CheckpointBy store directory state faults (.error error, store, directory)
  | published (error : Error) (snapshot : DurableFile)
      (content : Published store.config (encodeState state) snapshot)
      (bound : (encodeState state).length ≤ store.config.maxStateBytes)
      (writes : store.config.writes faults.snapshot)
      (stays : ¬store.config.writes faults.checkpointRotate) :
      CheckpointBy store directory state faults
        (.error error, { store with journalEpoch := store.journalEpoch + 1 },
          { directory with snapshot := some snapshot })
  | kept (snapshot journal : DurableFile) (content : Published store.config (encodeState state) snapshot)
      (header : Published store.config encodeJournalHeader journal)
      (bound : (encodeState state).length ≤ store.config.maxStateBytes)
      (writes : store.config.writes faults.snapshot)
      (stays : store.journal = none ∨ store.journal = some (store.journalEpoch + 1) ∨
        faults.removed = false) :
      CheckpointBy store directory state faults
        (.ok (), store.rotated,
          { directory with snapshot := some snapshot }.setJournal (store.journalEpoch + 1) journal)
  | retired (snapshot journal : DurableFile) (content : Published store.config (encodeState state) snapshot)
      (header : Published store.config encodeJournalHeader journal)
      (bound : (encodeState state).length ≤ store.config.maxStateBytes)
      (writes : store.config.writes faults.snapshot)
      (rotates : store.config.writes faults.checkpointRotate) (removed : faults.removed = true)
      (previous : UInt64) (named : store.journal = some previous)
      (ne : store.journalEpoch + 1 ≠ previous) :
      CheckpointBy store directory state faults
        (.ok (), store.rotated,
          ({ directory with snapshot := some snapshot }.setJournal (store.journalEpoch + 1)
            journal).removeJournal previous)

theorem checkpoint_by (h : store.isOpen = true) :
    CheckpointBy store directory state faults (store.checkpoint directory state faults) := by
  unfold checkpoint writeSnapshotAtomic
  rw [if_neg (not_not.mpr h)]
  by_cases hbound : (encodeState state).length > store.config.maxStateBytes
  · simp only [if_pos hbound]
    exact CheckpointBy.refused _
  simp only [if_neg hbound]
  by_cases hwrites : store.config.writes faults.snapshot
  · obtain ⟨snapshot, hfile, hcontent⟩ := @publishFile_ok _ (encodeState state) _ hwrites
    simp only [hfile]
    have hby := @rotateJournal_by store { directory with snapshot := some snapshot }
      faults.checkpointRotate
    generalize store.rotateJournal { directory with snapshot := some snapshot }
      faults.checkpointRotate = result at hby ⊢
    cases hby with
    | failed error hstays =>
      exact CheckpointBy.published error snapshot hcontent (Nat.not_lt.mp hbound) hwrites hstays
    | started journal hheader hrotates =>
      simp only
      cases hj : store.journal with
      | none =>
        exact CheckpointBy.kept snapshot journal hcontent hheader (Nat.not_lt.mp hbound) hwrites
          (Or.inl hj)
      | some previous =>
        simp only
        by_cases hr : store.rotated.journal ≠ some previous ∧ faults.removed
        · rw [if_pos hr]
          exact CheckpointBy.retired snapshot journal hcontent hheader (Nat.not_lt.mp hbound)
            hwrites hrotates hr.2 previous hj fun heq => hr.1 (congrArg some heq)
        · rw [if_neg hr]
          refine CheckpointBy.kept snapshot journal hcontent hheader (Nat.not_lt.mp hbound)
            hwrites (Or.inr ?_)
          by_cases hremoved : faults.removed = true
          · refine Or.inl (hj.trans ?_)
            exact (not_not.mp fun hne => hr ⟨hne, hremoved⟩).symm
          · exact Or.inr (Bool.eq_false_iff.mpr hremoved)
  · obtain ⟨error, herror⟩ := @publishFile_error _ (encodeState state) _ hwrites
    simp only [herror]
    exact CheckpointBy.refused error

/-! ### A running store -/

/-- A directory with a new journal behind the others. -/
theorem lastJournal_rotated (he : ∀ entry ∈ directory.journals, entry.1 ≤ store.journalEpoch)
    (hroom : store.journalEpoch.toNat + 1 < 2 ^ 64) (file : DurableFile) :
    LastJournal (directory.setJournal (store.journalEpoch + 1) file) directory.journals
      (store.journalEpoch + 1) file := by
  constructor
  show putJournal (store.journalEpoch + 1) file directory.journals = _
  refine putJournal_of_lt fun entry hm => ?_
  have hle := UInt64.le_iff_toNat_le.mp (he entry hm)
  have hone : (1 : UInt64).toNat = 1 := rfl
  rw [UInt64.lt_iff_toNat_lt, UInt64.toNat_add, hone, Nat.mod_eq_of_lt hroom]
  omega

/-- What a crash leaves is the same behind a synced new journal. -/
theorem crash_state_rotated (h : Serves store directory)
    (hroom : store.journalEpoch.toNat + 1 < 2 ^ 64) {file : DurableFile}
    (hfile : Published store.config encodeJournalHeader file)
    (hf : store.config.fsyncOnCommit = true) (keep : Option UInt64 → ℕ) :
    ((directory.setJournal (store.journalEpoch + 1) file).crash keep).state =
      (directory.crash keep).state := by
  rw [(lastJournal_rotated h.epoch hroom file).crash_state, hfile.synced hf, intact_header.2]
  rfl

theorem filesStates_rotated (h : Serves store directory)
    (hroom : store.journalEpoch.toNat + 1 < 2 ^ 64) {file : DurableFile}
    (hfile : Published store.config encodeJournalHeader file) :
    filesStates (directory.setJournal (store.journalEpoch + 1) file).journals =
      filesStates directory.journals := by
  rw [(lastJournal_rotated h.epoch hroom file).journals, filesStates_append, filesStates_cons,
    hfile.content, intact_header.2, filesStates_nil, List.append_nil, List.append_nil]

theorem serves_rotated (h : Serves store directory) (hroom : store.journalEpoch.toNat + 1 < 2 ^ 64)
    (file : DurableFile) :
    Serves store.rotated (directory.setJournal (store.journalEpoch + 1) file) := by
  have hlast := lastJournal_rotated h.epoch hroom file
  refine ⟨h.isOpen, nofun, fun index hi => ?_, fun entry hm => ?_⟩
  · obtain rfl := Option.some.inj hi
    exact ⟨directory.journals, file, hlast⟩
  · rw [hlast.journals, List.mem_append, List.mem_singleton] at hm
    rcases hm with hm | rfl
    · exact UInt64.le_of_lt (hlast.others_lt entry hm)
    · exact UInt64.le_refl _

theorem serves_skipped (h : Serves store directory) (hroom : store.journalEpoch.toNat + 1 < 2 ^ 64) :
    Serves { store with journalEpoch := store.journalEpoch + 1 } directory := by
  refine ⟨h.isOpen, h.unnamed, h.named, fun entry hm => ?_⟩
  have hone : (1 : UInt64).toNat = 1 := rfl
  have hle := UInt64.le_iff_toNat_le.mp (h.epoch entry hm)
  show entry.1 ≤ store.journalEpoch + 1
  rw [UInt64.le_iff_toNat_le, UInt64.toNat_add, hone, Nat.mod_eq_of_lt hroom]
  omega

/-- Another content of the current journal. -/
theorem serves_write (h : Serves store directory) {others : JournalFiles} {index : UInt64}
    {file : DurableFile} (hl : LastJournal directory others index file)
    (hi : store.journal = some index) (file' : DurableFile) (count : UInt64) :
    Serves { store with recordsSinceSnapshot := count } (directory.setJournal index file') := by
  have hlast : LastJournal (directory.setJournal index file') others index file' := hl.set
  refine ⟨h.isOpen, fun hnone => ?_, fun index' hi' => ?_, fun entry hm => ?_⟩
  · rw [hi] at hnone
    cases hnone
  · obtain rfl := Option.some.inj (hi.symm.trans hi')
    exact ⟨others, file', hlast⟩
  · rw [hlast.journals] at hm
    have hle := h.epoch
    rw [hl.journals] at hle
    rcases List.mem_append.mp hm with hm | hm
    · exact hle entry (List.mem_append_left _ hm)
    · rw [List.mem_singleton.mp hm]
      exact hle (index, file) (List.mem_append_right _ (List.mem_singleton.mpr rfl))

theorem serves_snapshot (h : Serves store directory) (snapshot : Option DurableFile) :
    Serves store { directory with snapshot } := by
  refine ⟨h.isOpen, h.unnamed, fun index hi => ?_, h.epoch⟩
  obtain ⟨others, file, hl⟩ := h.named index hi
  exact ⟨others, file, ⟨hl.journals⟩⟩

/-- The removal of a journal that is not the last one. -/
theorem lastJournal_removed {others : JournalFiles} {index : UInt64} {file : DurableFile}
    (hl : LastJournal directory others index file) {previous : UInt64} (hne : index ≠ previous) :
    LastJournal (directory.removeJournal previous)
      (others.filter fun entry => entry.1 ≠ previous) index file := by
  constructor
  show directory.journals.filter _ = _
  rw [hl.journals, List.filter_append]
  simp [hne]

theorem serves_removed (h : Serves store directory) {others : JournalFiles} {index : UInt64}
    {file : DurableFile} (hl : LastJournal directory others index file)
    (hi : store.journal = some index) {previous : UInt64} (hne : index ≠ previous) :
    Serves store (directory.removeJournal previous) := by
  refine ⟨h.isOpen, fun hnone => ?_, fun index' hi' => ?_, fun entry hm => ?_⟩
  · rw [hi] at hnone
    cases hnone
  · obtain rfl := Option.some.inj (hi.symm.trans hi')
    exact ⟨_, file, lastJournal_removed hl hne⟩
  · exact h.epoch entry (List.mem_of_mem_filter hm)

/-- A store that recovers goes on with the last journal it found. -/
theorem serves_recovered {store' : DurableStore} {listed : Bool} {report : RecoveryReport}
    (hnone : directory.journals = [] → store.journal = none)
    (h : store.recover directory listed = (.ok report, store')) : Serves store' directory := by
  have hby := recover_by store directory listed
  rw [h] at hby
  cases hby with
  | reported hopen =>
    unfold resumed
    cases hlast : directory.journals.getLast? with
    | none =>
      have hempty := List.getLast?_eq_none_iff.mp hlast
      refine ⟨hopen, fun _ => hempty, fun index hi => ?_, fun entry hm => ?_⟩
      · rw [hnone hempty] at hi
        cases hi
      · rw [hempty] at hm
        cases hm
    | some last =>
      obtain ⟨others, hjournals⟩ := List.getLast?_eq_some_iff.mp hlast
      have hl : LastJournal directory others last.1 last.2 := ⟨hjournals⟩
      refine ⟨hopen, nofun, fun index hi => ?_, fun entry hm => ?_⟩
      · obtain rfl := Option.some.inj hi
        exact ⟨others, last.2, hl⟩
      · rw [hjournals, List.mem_append, List.mem_singleton] at hm
        rcases hm with hm | rfl
        · exact UInt64.le_of_lt (hl.others_lt entry hm)
        · exact UInt64.le_refl _

/-! ### The journal of a commit -/

/-- The record of a commit. -/
def commitRecord (state : GovernorState) : Text :=
  encodeJournalRecord .stateCommit (encodeState state)

/-- A commit the store does not refuse for its size. -/
def withinBounds (store : DurableStore) (state : GovernorState) : Prop :=
  (encodeState state).length ≤ store.config.maxStateBytes ∧
    (encodeState state).length ≤ kMaxJournalRecordBytes

instance (store : DurableStore) (state : GovernorState) : Decidable (store.withinBounds state) := by
  delta withinBounds; infer_instance

/-- The commit will be followed by a checkpoint. -/
def checkpoints (store : DurableStore) : Prop :=
  store.recordsSinceSnapshot + 1 ≥ store.config.maxJournalRecordsBeforeSnapshot

instance (store : DurableStore) : Decidable store.checkpoints := by
  delta checkpoints; infer_instance

/-- The journals beside the current one. -/
def others (store : DurableStore) (directory : Directory) : JournalFiles :=
  directory.journals.filter fun entry => store.journal ≠ some entry.1

theorem others_eq {others : JournalFiles} {index : UInt64}
    {file : DurableFile} (hl : LastJournal directory others index file)
    (hj : store.journal = some index) : store.others directory = others := by
  have hothers : others.filter (fun entry => store.journal ≠ some entry.1) = others := by
    refine List.filter_eq_self.mpr fun entry hm => ?_
    have hne : index ≠ entry.1 := fun heq =>
      UInt64.lt_irrefl index (heq ▸ hl.others_lt entry hm)
    simp [hj, hne]
  unfold DurableStore.others
  rw [hl.journals, List.filter_append, hothers]
  simp [hj]

theorem room_header (hb : store.withinBounds state) :
    (encodeJournalHeader ++ commitRecord state).length ≤ kMaxFileBytes := by
  have hbound := hb.2
  have hheader : encodeJournalHeader.length = 12 := rfl
  rw [commitRecord, List.length_append, encodeJournalRecord_length, hheader]
  simp only [kJournalRecordHeaderBytes, kMaxFileBytes, kMaxJournalRecordBytes] at *
  omega

/-- The journal a commit is appended to, as `ensureJournal` leaves it: the named one, or a new
one in a directory without any. -/
structure Ready (store : DurableStore) (directory : Directory) (state : GovernorState)
    (index : UInt64) (named : DurableStore) (started : Directory) (others : JournalFiles)
    (file : DurableFile) : Prop where
  serves : Serves named started
  config : named.config = store.config
  journal : named.journal = some index
  last : LastJournal started others index file
  intact : intact file.content
  room : (file.content ++ commitRecord state).length ≤ kMaxFileBytes
  snapshot : started.snapshot = directory.snapshot
  states : filesStates started.journals = filesStates directory.journals
  crash : store.config.fsyncOnCommit = true → ∀ keep,
    (started.crash keep).state = (directory.crash keep).state
  others_eq : others = store.others directory
  indices : named.journalEpoch.toNat + 1 < 2 ^ 64
  checkpoints : named.checkpoints → store.checkpoints ∨ store.journal = none

/-- The current journal takes the record of a commit: it ends with a whole record and has
room. -/
structure TakesCommit (store : DurableStore) (directory : Directory) (state : GovernorState) :
    Prop where
  bounds : store.withinBounds state
  indices : store.journalEpoch.toNat + 2 < 2 ^ 64
  journal : ∀ index ∈ store.journal, ∀ file ∈ directory.journal index, intact file.content ∧
    (file.content ++ commitRecord state).length ≤ kMaxFileBytes

theorem TakesCommit.room (h : store.TakesCommit directory state) :
    store.journalEpoch.toNat + 1 < 2 ^ 64 := by
  have hindices := h.indices
  omega

theorem rotated_indices (h : store.journalEpoch.toNat + 2 < 2 ^ 64) :
    store.rotated.journalEpoch.toNat + 1 < 2 ^ 64 := by
  have hone : (1 : UInt64).toNat = 1 := rfl
  show (store.journalEpoch + 1).toNat + 1 < 2 ^ 64
  rw [UInt64.toNat_add, hone, Nat.mod_eq_of_lt (by omega)]
  omega

theorem ready_named (h : Serves store directory) (ht : store.TakesCommit directory state)
    {index : UInt64} (hj : store.journal = some index) :
    ∃ others file, Ready store directory state index store directory others file := by
  obtain ⟨others, file, hl⟩ := h.named index hj
  obtain ⟨hintact, hmax⟩ := ht.journal index hj file hl.journal_eq
  exact ⟨others, file, h, rfl, hj, hl, hintact, hmax, rfl, rfl, fun _ _ => rfl,
    (others_eq hl hj).symm, ht.room, Or.inl⟩

theorem ready_started (h : Serves store directory) (ht : store.TakesCommit directory state)
    (hj : store.journal = none) {file : DurableFile}
    (hfile : Published store.config encodeJournalHeader file) :
    Ready store directory state (store.journalEpoch + 1) store.rotated
      (directory.setJournal (store.journalEpoch + 1) file) directory.journals file := by
  have hothers : directory.journals = store.others directory := by
    unfold others
    rw [hj]
    exact (List.filter_eq_self.mpr fun _ _ => rfl).symm
  refine ⟨serves_rotated h ht.room file, rfl, rfl, lastJournal_rotated h.epoch ht.room file, ?_, ?_,
    rfl, filesStates_rotated h ht.room hfile, crash_state_rotated h ht.room hfile, hothers,
    rotated_indices ht.indices, fun _ => Or.inr hj⟩
  · rw [hfile.content]
    exact intact_header.1
  · rw [hfile.content]
    exact room_header ht.bounds

/-- The ways through the `append` of a commit that the journal takes. -/
inductive JournaledBy (store : DurableStore) (directory : Directory) (state : GovernorState)
    (faults : CommitFaults) : Status × DurableStore × Directory → Prop
  | unready (error : Error) (skipped : DurableStore) (serves : Serves skipped directory) :
      JournaledBy store directory state faults (.error error, skipped, directory)
  | torn (error : Error) (index : UInt64) (named : DurableStore) (started : Directory)
      (others : JournalFiles) (file : DurableFile)
      (ready : Ready store directory state index named started others file) (n : ℕ) :
      JournaledBy store directory state faults (.error error, named,
        started.setJournal index (file.write ((commitRecord state).take n)))
  | unclosed (error : Error) (index : UInt64) (named : DurableStore) (started : Directory)
      (others : JournalFiles) (file : DurableFile)
      (ready : Ready store directory state index named started others file) :
      JournaledBy store directory state faults (.error error, named,
        started.setJournal index (store.config.appended file (commitRecord state)))
  | acknowledged (index : UInt64) (named : DurableStore) (started : Directory)
      (others : JournalFiles) (file : DurableFile)
      (ready : Ready store directory state index named started others file)
      (appends : store.config.appends faults.append) :
      JournaledBy store directory state faults (.ok (),
        { named with recordsSinceSnapshot := named.recordsSinceSnapshot + 1 },
        started.setJournal index (store.config.appended file (commitRecord state)))

theorem append_by (h : Serves store directory) (ht : store.TakesCommit directory state) :
    JournaledBy store directory state faults
      (store.append directory .stateCommit (encodeState state) faults) := by
  unfold append
  rw [if_neg (not_not.mpr h.isOpen), if_neg (Nat.not_lt.mpr ht.bounds.2)]
  have hby := @ensureJournal_by store directory faults.rotate
  generalize store.ensureJournal directory faults.rotate = ensured at hby ⊢
  obtain ⟨index, named, started⟩ := ensured
  have hready : ∀ index', index = .ok index' →
      ∃ others file, Ready store directory state index' named started others file := by
    rintro index' rfl
    cases hby with
    | named _ hj => exact ready_named h ht hj
    | started file header hj => exact ⟨_, file, ready_started h ht hj header⟩
  cases index with
  | error error =>
    cases hby with
    | failed => exact .unready error _ (serves_skipped h ht.room)
  | ok index =>
    obtain ⟨others, file, hr⟩ := hready index rfl
    have hfile := @appendFile_by store.config file (commitRecord state) faults.append
    simp only [hr.last.journal_eq]
    unfold commitRecord at hfile
    generalize appendFile (some file) (encodeJournalRecord .stateCommit (encodeState state))
      store.config.fsyncOnCommit faults.append = written at hfile ⊢
    cases hfile with
    | torn error n => exact .torn error index named started others file hr n
    | unclosed error => exact .unclosed error index named started others file hr
    | acknowledged ha => exact .acknowledged index named started others file hr ha

end DurableStore

end IncastGovernor
