import IncastGovernor.Durable.File
import IncastGovernor.Durable.Journal

/-! The durable store: commits are appended to a journal, a checkpoint publishes a
snapshot, starts a new journal and removes the one before, and a recovery replays the
snapshot and every journal there is. The outcome of each file operation is an input. -/

namespace IncastGovernor

open Codec

/-! ### The directory -/

abbrev JournalFiles := List (UInt64 × DurableFile)

/-- The files of a store: the snapshot, and the journals by their index. Temporary files
are left out: a recovery passes over them. -/
structure Directory where
  snapshot : Option DurableFile := none
  journals : JournalFiles := []
  ascending : journals.Pairwise (fun a b => a.1 < b.1) := by exact List.Pairwise.nil

/-- A journal written to its place; one of the same index is replaced. -/
def putJournal (index : UInt64) (file : DurableFile) : JournalFiles → JournalFiles
  | [] => [(index, file)]
  | entry :: rest =>
    if entry.1 < index then entry :: putJournal index file rest
    else if entry.1 = index then (index, file) :: rest
    else (index, file) :: entry :: rest

theorem mem_putJournal {index : UInt64} {file : DurableFile} {journals : JournalFiles}
    {entry : UInt64 × DurableFile} (h : entry ∈ putJournal index file journals) :
    entry = (index, file) ∨ entry ∈ journals := by
  induction journals with
  | nil => exact Or.inl (List.mem_singleton.mp h)
  | cons first rest ih =>
    unfold putJournal at h
    split_ifs at h
    · rcases List.mem_cons.mp h with rfl | h
      · exact Or.inr List.mem_cons_self
      · exact (ih h).imp_right (List.mem_cons_of_mem first)
    · rcases List.mem_cons.mp h with rfl | h
      · exact Or.inl rfl
      · exact Or.inr (List.mem_cons_of_mem first h)
    · rcases List.mem_cons.mp h with rfl | h
      · exact Or.inl rfl
      · exact Or.inr h

theorem putJournal_ascending (index : UInt64) (file : DurableFile) {journals : JournalFiles}
    (h : journals.Pairwise fun a b => a.1 < b.1) :
    (putJournal index file journals).Pairwise fun a b => a.1 < b.1 := by
  induction journals with
  | nil => exact List.pairwise_singleton _ _
  | cons first rest ih =>
    obtain ⟨hfirst, hrest⟩ := List.pairwise_cons.mp h
    unfold putJournal
    split_ifs with hlt heq
    · refine List.pairwise_cons.mpr ⟨fun entry hm => ?_, ih hrest⟩
      rcases mem_putJournal hm with rfl | hm
      · exact hlt
      · exact hfirst entry hm
    · exact List.pairwise_cons.mpr ⟨fun entry hm => heq ▸ hfirst entry hm, hrest⟩
    · have hindex : index < first.1 :=
        UInt64.lt_of_le_of_ne (UInt64.not_lt.mp hlt) fun h => heq h.symm
      refine List.pairwise_cons.mpr ⟨fun entry hm => ?_, h⟩
      rcases List.mem_cons.mp hm with rfl | hm
      · exact hindex
      · exact UInt64.lt_trans hindex (hfirst entry hm)

namespace Directory

variable (directory : Directory)

def journal (index : UInt64) : Option DurableFile :=
  (directory.journals.find? fun entry => entry.1 = index).map fun entry => entry.2

def setJournal (index : UInt64) (file : DurableFile) : Directory :=
  { directory with
    journals := putJournal index file directory.journals
    ascending := putJournal_ascending index file directory.ascending }

def removeJournal (index : UInt64) : Directory :=
  { directory with
    journals := directory.journals.filter fun entry => entry.1 ≠ index
    ascending := directory.ascending.filter _ }

/-- The files after a crash that let so many of each file's cached bytes through. -/
def crash (keep : Option UInt64 → ℕ) : Directory where
  snapshot := directory.snapshot.map fun file => file.crash (keep none)
  journals := directory.journals.map fun entry => (entry.1, entry.2.crash (keep (some entry.1)))
  ascending := List.pairwise_map.mpr directory.ascending

end Directory

/-! ### The store -/

structure DurableConfig where
  directory : Text := []
  maxJournalRecordsBeforeSnapshot : UInt64 := UInt64.ofNat kMaxJournalRecordsBeforeSnapshot
  fsyncOnCommit : Bool := true
  maxStateBytes : ℕ := 4 * 2 ^ 20

/-- `journal` is the journal that `journal_path_` names, when it names one. -/
structure DurableStore where
  config : DurableConfig := {}
  journal : Option UInt64 := none
  journalEpoch : UInt64 := 0
  recordsSinceSnapshot : UInt64 := 0
  isOpen : Bool := false

/-- The faults of the file operations of one commit; `removed` tells whether the removal
of the previous journal works. -/
structure CommitFaults where
  rotate : Option AtomicWriteFault := none
  append : Option AppendFault := none
  snapshot : Option AtomicWriteFault := none
  checkpointRotate : Option AtomicWriteFault := none
  removed : Bool := true

namespace DurableStore

variable (store : DurableStore) (directory : Directory)

def «open» (config : DurableConfig) (created : Bool) : Status × DurableStore :=
  if store.isOpen then (fail .alreadyExists "durable store is already open", store)
  else if config.directory = [] then
    (fail .invalidArgument "durable store directory is empty", store)
  else if ¬created then
    (fail .ioFailure "unable to create the durable state directory", { store with config })
  else (.ok (), { config, isOpen := true })

/-- `rotate_journal`: the index moves on even when the file cannot be written. -/
def rotateJournal (fault : Option AtomicWriteFault) : Status × DurableStore × Directory :=
  let next := store.journalEpoch + 1
  match publishFile encodeJournalHeader store.config.fsyncOnCommit fault with
  | .error error => (.error error, { store with journalEpoch := next }, directory)
  | .ok file =>
    (.ok (), { store with journalEpoch := next, journal := some next, recordsSinceSnapshot := 0 },
      directory.setJournal next file)

/-- The journal to append to: a first one is started where none is named. -/
def ensureJournal (fault : Option AtomicWriteFault) : Outcome UInt64 × DurableStore × Directory :=
  match store.journal with
  | some index => (.ok index, store, directory)
  | none =>
    let (status, rotated, next) := store.rotateJournal directory fault
    (status.map fun _ => rotated.journalEpoch, rotated, next)

def append (type : JournalRecordType) (payload : Text) (faults : CommitFaults) :
    Status × DurableStore × Directory :=
  if ¬store.isOpen then (fail .closed "durable store is not open", store, directory)
  else if payload.length > kMaxJournalRecordBytes then
    (fail .oversizedInput "journal payload exceeds the supported bound", store, directory)
  else
    let (index, named, started) := store.ensureJournal directory faults.rotate
    match index with
    | .error error => (.error error, named, started)
    | .ok index =>
      let (status, file) := appendFile (started.journal index) (encodeJournalRecord type payload)
        store.config.fsyncOnCommit faults.append
      let written := match file with
        | some file => started.setJournal index file
        | none => started
      match status with
      | .error error => (.error error, named, written)
      | .ok () =>
        (.ok (), { named with recordsSinceSnapshot := named.recordsSinceSnapshot + 1 }, written)

def writeSnapshotAtomic (state : GovernorState) (fault : Option AtomicWriteFault) :
    Status × Directory :=
  let encoded := encodeState state
  if encoded.length > store.config.maxStateBytes then
    (fail .oversizedInput "encoded state exceeds the configured bound", directory)
  else
    match publishFile encoded store.config.fsyncOnCommit fault with
    | .error error => (.error error, directory)
    | .ok file => (.ok (), { directory with snapshot := some file })

/-- `checkpoint`: the snapshot is published before the journal it covers is retired. -/
def checkpoint (state : GovernorState) (faults : CommitFaults) :
    Status × DurableStore × Directory :=
  if ¬store.isOpen then (fail .closed "durable store is not open", store, directory)
  else
    let (status, snapped) := store.writeSnapshotAtomic directory state faults.snapshot
    match status with
    | .error error => (.error error, store, snapped)
    | .ok () =>
      let (status, rotated, started) := store.rotateJournal snapped faults.checkpointRotate
      match status with
      | .error error => (.error error, rotated, started)
      | .ok () =>
        match store.journal with
        | some previous =>
          if rotated.journal ≠ some previous ∧ faults.removed then
            (.ok (), rotated, started.removeJournal previous)
          else (.ok (), rotated, started)
        | none => (.ok (), rotated, started)

def commit (state : GovernorState) (faults : CommitFaults) : Status × DurableStore × Directory :=
  if ¬store.isOpen then (fail .closed "durable store is not open", store, directory)
  else
    let encoded := encodeState state
    if encoded.length > store.config.maxStateBytes then
      (fail .oversizedInput "encoded state exceeds the configured bound", store, directory)
    else
      let (status, appended, written) := store.append directory .stateCommit encoded faults
      match status with
      | .error error => (.error error, appended, written)
      | .ok () =>
        if appended.recordsSinceSnapshot ≥ appended.config.maxJournalRecordsBeforeSnapshot then
          appended.checkpoint written state faults
        else (.ok (), appended, written)

end DurableStore

/-! ### Recovery -/

structure RecoveryReport where
  snapshotPresent : Bool := false
  snapshotLoaded : Bool := false
  snapshotCorrupt : Bool := false
  snapshotGeneration : UInt64 := 0
  journalPresent : Bool := false
  journalRecordsApplied : UInt64 := 0
  journalRecordsRejected : UInt64 := 0
  journalTailBytesDiscarded : UInt64 := 0
  journalTailAmbiguous : Bool := false
  recoveredCommittedState : Bool := false
  hasUnfinishedAttempts : Bool := false
  hasAmbiguousOutcomes : Bool := false
  staleLiveAuthorityDropped : Bool := false
  interventionsRequiringRevalidation : UInt32 := 0
  interventionsDroppedAsStale : UInt32 := 0
  state : GovernorState := {}
  notes : List Text := []

namespace RecoveryReport

variable (report : RecoveryReport)

def note (text : Text) : RecoveryReport := { report with notes := report.notes ++ [text] }

/-- The snapshot is the state to start from, when it can be read and decoded. -/
def applySnapshot (snapshot : Option DurableFile) : RecoveryReport :=
  match snapshot with
  | none => report
  | some file =>
    let present := { report with snapshotPresent := true }
    if file.content.length > kMaxFileBytes then
      { present with snapshotCorrupt := true }.note
        (ascii "snapshot could not be read; recovery continues from the journal")
    else
      match decodeState file.content with
      | .error error =>
        { present with snapshotCorrupt := true }.note
          (ascii "snapshot rejected: " ++ error.code.toText)
      | .ok state =>
        { present with
          snapshotLoaded := true
          snapshotGeneration := state.generation.value
          state
          recoveredCommittedState := true }

/-- A record of a journal: a commit that can be decoded replaces the state. -/
def applyRecord (record : JournalRecordType × Text) : RecoveryReport :=
  let applied := { report with journalRecordsApplied := report.journalRecordsApplied + 1 }
  if record.1 = .stateCommit then
    match decodeState record.2 with
    | .error _ =>
      { applied with journalRecordsRejected := applied.journalRecordsRejected + 1 }
    | .ok state => { applied with state, recoveredCommittedState := true }
  else applied

/-- What is left of a journal where its replay stops. -/
def applyTail (error : Error) (tail : Text) : RecoveryReport :=
  let remaining := UInt64.ofNat tail.length
  if error.code = .truncatedInput ∧ tail.length < kJournalRecordHeaderBytes then
    { report with
      journalTailBytesDiscarded := report.journalTailBytesDiscarded + remaining }.note
      (ascii "journal tail truncated mid-header; discarded")
  else if error.code = .truncatedInput ∨ error.code = .checksumMismatch then
    { report with
      journalTailBytesDiscarded := report.journalTailBytesDiscarded + remaining
      journalTailAmbiguous := true }.note
      (ascii "journal tail is ambiguous; discarded rather than trusted")
  else
    { report with journalRecordsRejected := report.journalRecordsRejected + 1 }.note
      (ascii "journal record rejected: " ++ error.code.toText)

def journalName (index : UInt64) : Text :=
  ascii "governor." ++ formatU64 index ++ ascii ".journal"

def applyJournal (entry : UInt64 × DurableFile) : RecoveryReport :=
  match readJournal entry.2.content with
  | .error .unreadable =>
    report.note (ascii "journal could not be read: " ++ journalName entry.1)
  | .error .headerInvalid =>
    report.note (ascii "journal header invalid: " ++ journalName entry.1)
  | .ok (records, tail) =>
    let applied := records.foldl applyRecord report
    match tail with
    | none => applied
    | some (error, bytes) => applied.applyTail error bytes

end RecoveryReport

/-- Durable state restores no liveness, authority or freshness. -/
def clearAuthority (state : GovernorState) : GovernorState :=
  { state with
    interventions := state.interventions.map fun intervention =>
      if intervention.live then { intervention with state := .revalidating } else intervention
    requiresRevalidation := true
    epoch := {}
    boot := {}
    restoredFromDurable := true
    restoreCount := state.restoreCount + 1
    recovery := {}
    incidentStreak := 0
    cleanStreak := 0 }

def liveInterventions (state : GovernorState) : UInt32 :=
  UInt32.ofNat (state.interventions.filter fun intervention => intervention.live).length

/-- The end of a recovery: what was live has to be revalidated. -/
def RecoveryReport.finish (report : RecoveryReport) : RecoveryReport :=
  let live := liveInterventions report.state
  { report with
    interventionsRequiringRevalidation := live
    interventionsDroppedAsStale := live
    staleLiveAuthorityDropped := live > 0
    hasUnfinishedAttempts := live > 0
    hasAmbiguousOutcomes := report.journalTailAmbiguous || report.snapshotCorrupt
    state := clearAuthority report.state }

/-- `recover`: the journals are read in the order of their index, and the last one is
appended to from now on. -/
def DurableStore.recover (store : DurableStore) (directory : Directory) (listed : Bool) :
    Outcome RecoveryReport × DurableStore :=
  if ¬store.isOpen then (fail .closed "durable store is not open", store)
  else if ¬listed then (fail .ioFailure "unable to enumerate the durable state directory", store)
  else
    let snapped := ({} : RecoveryReport).applySnapshot directory.snapshot
    let present := { snapped with journalPresent := !directory.journals.isEmpty }
    let replayed := directory.journals.foldl RecoveryReport.applyJournal present
    (.ok replayed.finish,
      match directory.journals.getLast? with
      | none => store
      | some last => { store with journal := some last.1, journalEpoch := last.1 })

end IncastGovernor
