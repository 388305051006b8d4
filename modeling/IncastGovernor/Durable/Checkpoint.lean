import IncastGovernor.Durable.History

/-! Snapshots and the journals they leave behind. A recovery replays every journal that is
there over the snapshot and compares no generations: a checkpoint that leaves a journal with
older states behind it is undone by the next recovery. -/

namespace IncastGovernor

open Codec Foundation

/-! ### A store and its directory -/

def DurableStore.close (store : DurableStore) : DurableStore := { store with isOpen := false }

structure Session where
  directory : Directory := {}
  store : DurableStore := {}

/-- The calls of a store, and crashes. A crash in the middle of a call comes after the call
with the file operations behind it failing; it keeps so many cached bytes of each file. -/
inductive StoreCall where
  | «open» (config : DurableConfig) (created : Bool)
  | recover (listed : Bool)
  | commit (state : GovernorState) (faults : CommitFaults)
  | checkpoint (state : GovernorState) (faults : CommitFaults)
  | close
  | crash (keep : Option UInt64 → ℕ)

/-- The state that a call is to make durable. -/
def StoreCall.state : StoreCall → Option GovernorState
  | .commit state _ | .checkpoint state _ => some state
  | .open _ _ | .recover _ | .close | .crash _ => none

namespace Session

def step (s : Session) : StoreCall → Session
  | .open config created => { s with store := (s.store.open config created).2 }
  | .recover listed => { s with store := (s.store.recover s.directory listed).2 }
  | .commit state faults =>
    let (_, store, directory) := s.store.commit s.directory state faults
    { directory, store }
  | .checkpoint state faults =>
    let (_, store, directory) := s.store.checkpoint s.directory state faults
    { directory, store }
  | .close => { s with store := s.store.close }
  | .crash keep => { directory := s.directory.crash keep }

/-- A recovery reports a state at least as new as the snapshot it loaded. -/
def keepsSnapshot (s : Session) : StoreCall → Prop
  | .recover listed => ∀ report ∈ (s.store.recover s.directory listed).1.toOption,
      report.snapshotLoaded = true → report.snapshotGeneration ≤ report.state.generation.value
  | _ => True

instance (s : Session) : DecidablePred s.keepsSnapshot
  | .recover listed =>
    inferInstanceAs (Decidable (∀ report ∈ (s.store.recover s.directory listed).1.toOption,
      report.snapshotLoaded = true → report.snapshotGeneration ≤ report.state.generation.value))
  | .open _ _ | .commit _ _ | .checkpoint _ _ | .close | .crash _ => isTrue trivial

end Session

/-! ### The condition -/

/-- Some states, of which a recovery takes the last, hold nothing older than a generation. -/
def asNew (generation : StateGeneration) (states : List GovernorState) : Prop :=
  ∀ last ∈ states.getLast?, generation.value ≤ last.generation.value

namespace DurableStore

variable (store : DurableStore) (directory : Directory) (state : GovernorState)
  (faults : CommitFaults)

/-- A checkpoint publishes a snapshot that a recovery loads. -/
def publishes : Prop :=
  (encodeState state).length ≤ store.config.maxStateBytes ∧ store.config.writes faults.snapshot ∧
    snapshotStates (some { synced := encodeState state }) ≠ []

/-- A checkpoint goes on to remove the current journal. -/
def retires : Prop := store.config.writes faults.checkpointRotate ∧ faults.removed = true

/-- The store goes on with the journal it found, and indices are left. -/
structure Follows : Prop where
  recovered : store.journal = none → directory.journals = []
  indices : store.journalEpoch.toNat + 2 < 2 ^ 64

/-- What a checkpoint leaves behind its snapshot holds no older states. -/
structure CheckpointsInOrder : Prop extends store.Follows directory where
  retired : store.publishes state faults → store.retires faults →
    asNew state.generation (filesStates (store.others directory))
  left : store.publishes state faults → ¬store.retires faults →
    asNew state.generation (filesStates directory.journals)

/-- A commit goes to a journal that ends with a whole record and has room; if a checkpoint
follows and removes it, the journals beside it hold no older states. -/
structure CommitsInOrder : Prop extends store.Follows directory where
  journal : ∀ index ∈ store.journal, ∀ file ∈ directory.journal index, intact file.content ∧
    (file.content ++ commitRecord state).length ≤ kMaxFileBytes
  retired : store.checkpoints → store.config.appends faults.append →
    store.publishes state faults → store.retires faults →
      asNew state.generation (filesStates (store.others directory))

end DurableStore

/-- A crash loses no whole record, and not the snapshot. -/
def Directory.losesNothing (directory : Directory) (keep : Option UInt64 → ℕ) : Prop :=
  snapshotStates (directory.crash keep).snapshot = snapshotStates directory.snapshot ∧
    filesStates (directory.crash keep).journals = filesStates directory.journals

/-- The call leaves the snapshot in force. -/
def Session.inOrder (s : Session) : StoreCall → Prop
  | .commit state faults => s.store.isOpen → s.store.withinBounds state →
      s.store.CommitsInOrder s.directory state faults
  | .checkpoint state faults => s.store.isOpen →
      s.store.CheckpointsInOrder s.directory state faults
  | .crash keep => s.directory.losesNothing keep
  | _ => True

/-! The condition can be evaluated. -/

instance (generation : StateGeneration) (states : List GovernorState) :
    Decidable (asNew generation states) :=
  Option.decidableForallMem states.getLast?

instance (directory : Directory) (keep : Option UInt64 → ℕ) :
    Decidable (directory.losesNothing keep) := by
  delta Directory.losesNothing; infer_instance

namespace DurableStore

variable (store : DurableStore) (directory : Directory) (state : GovernorState)
  (faults : CommitFaults)

instance : Decidable (store.publishes state faults) := by
  delta publishes; infer_instance

instance : Decidable (store.retires faults) := by
  delta retires; infer_instance

instance : Decidable (store.Follows directory) :=
  have : Decidable (directory.journals = []) :=
    decidable_of_iff (directory.journals.isEmpty = true) List.isEmpty_iff
  decidable_of_iff ((store.journal = none → directory.journals = []) ∧
    store.journalEpoch.toNat + 2 < 2 ^ 64) ⟨fun ⟨a, b⟩ => ⟨a, b⟩, fun ⟨a, b⟩ => ⟨a, b⟩⟩

instance : Decidable (store.CheckpointsInOrder directory state faults) :=
  decidable_of_iff (store.Follows directory ∧
    (store.publishes state faults → store.retires faults →
      asNew state.generation (filesStates (store.others directory))) ∧
    (store.publishes state faults → ¬store.retires faults →
      asNew state.generation (filesStates directory.journals)))
    ⟨fun ⟨a, b, c⟩ => ⟨a, b, c⟩, fun ⟨a, b, c⟩ => ⟨a, b, c⟩⟩

instance : Decidable (store.CommitsInOrder directory state faults) :=
  -- as for a safe commit: no enumeration of the indices must be found here
  have : Decidable (∀ index ∈ store.journal, ∀ file ∈ directory.journal index,
      intact file.content ∧ (file.content ++ commitRecord state).length ≤ kMaxFileBytes) :=
    Option.decidableForallMem store.journal
  decidable_of_iff (store.Follows directory ∧
    (∀ index ∈ store.journal, ∀ file ∈ directory.journal index, intact file.content ∧
      (file.content ++ commitRecord state).length ≤ kMaxFileBytes) ∧
    (store.checkpoints → store.config.appends faults.append →
      store.publishes state faults → store.retires faults →
        asNew state.generation (filesStates (store.others directory))))
    ⟨fun ⟨a, b, c⟩ => ⟨a, b, c⟩, fun ⟨a, b, c⟩ => ⟨a, b, c⟩⟩

end DurableStore

instance (s : Session) : DecidablePred s.inOrder
  | .commit state faults => inferInstanceAs (Decidable (s.store.isOpen → s.store.withinBounds state →
      s.store.CommitsInOrder s.directory state faults))
  | .checkpoint state faults => inferInstanceAs (Decidable (s.store.isOpen →
      s.store.CheckpointsInOrder s.directory state faults))
  | .crash keep => inferInstanceAs (Decidable (s.directory.losesNothing keep))
  | .open _ _ | .recover _ | .close => isTrue trivial

/-! ### What is as new as a generation -/

section AsNew

variable {generation : StateGeneration} {xs ys : List GovernorState}

theorem asNew_nil : asNew generation [] := nofun

/-- States that are as new replace the last one by one that is. -/
theorem asNew_append (h : asNew generation xs)
    (hys : ∀ state ∈ ys, generation.value ≤ state.generation.value) :
    asNew generation (xs ++ ys) := by
  intro last hlast
  rw [List.getLast?_append] at hlast
  cases hy : ys.getLast? with
  | none =>
    rw [hy] at hlast
    exact h last hlast
  | some state =>
    rw [hy] at hlast
    obtain rfl := Option.some.inj hlast
    exact hys state (List.mem_of_getLast? hy)

theorem asNew_append_of_ne_nil (hne : ys ≠ [])
    (hys : ∀ state ∈ ys, generation.value ≤ state.generation.value) :
    asNew generation (xs ++ ys) := by
  intro last hlast
  rw [List.getLast?_append_of_ne_nil _ hne] at hlast
  exact hys last (List.mem_of_getLast? hlast)

theorem lastState_eq_getLast (base : GovernorState) (states : List GovernorState) :
    lastState base states = states.getLast?.getD base := by
  induction states using List.reverseRecOn with
  | nil => rfl
  | append_singleton states state _ => rw [lastState_concat, List.getLast?_concat]; rfl

end AsNew

/-- The journals of a directory are as new as its snapshot. -/
def Directory.inForce (directory : Directory) : Prop :=
  ∀ loaded ∈ snapshotStates directory.snapshot,
    asNew loaded.generation (filesStates directory.journals)

/-- There is one snapshot. -/
theorem snapshotStates_of_mem {snapshot : Option DurableFile} {loaded : GovernorState}
    (h : loaded ∈ snapshotStates snapshot) : snapshotStates snapshot = [loaded] := by
  unfold snapshotStates at h ⊢
  cases snapshot with
  | none => cases h
  | some file =>
    simp only at h ⊢
    by_cases hlen : file.content.length > kMaxFileBytes
    · rw [if_pos hlen] at h
      cases h
    · rw [if_neg hlen] at h ⊢
      cases hd : decodeState file.content with
      | error error =>
        rw [hd] at h
        cases h
      | ok state =>
        rw [hd] at h
        rw [List.mem_singleton.mp h]
        rfl

theorem Directory.inForce.state {directory : Directory} (h : directory.inForce)
    {loaded : GovernorState} (hl : loaded ∈ snapshotStates directory.snapshot) :
    loaded.generation.value ≤ directory.state.generation.value := by
  rw [Directory.state, snapshotStates_of_mem hl, lastState_append, lastState_eq_getLast]
  cases hlast : (filesStates directory.journals).getLast? with
  | none => exact UInt64.le_refl _
  | some last => exact h loaded hl last hlast

namespace RecoveryReport

/-- The snapshot that a report has loaded. -/
theorem applySnapshot_loaded {snapshot : Option DurableFile}
    (h : (({} : RecoveryReport).applySnapshot snapshot).snapshotLoaded = true) :
    ∃ loaded ∈ snapshotStates snapshot, loaded.generation.value =
      (({} : RecoveryReport).applySnapshot snapshot).snapshotGeneration := by
  unfold applySnapshot snapshotStates at *
  cases snapshot with
  | none => cases h
  | some file =>
    simp only at h ⊢
    by_cases hlen : file.content.length > kMaxFileBytes
    · rw [if_pos hlen] at h
      cases h
    · rw [if_neg hlen] at h ⊢
      rw [if_neg hlen]
      cases hd : decodeState file.content with
      | error error =>
        rw [hd] at h
        cases h
      | ok state => exact ⟨state, List.mem_singleton.mpr rfl, rfl⟩

/-- What journals leave of a report on the snapshot. -/
structure SameSnapshot (report next : RecoveryReport) : Prop where
  loaded : next.snapshotLoaded = report.snapshotLoaded
  generation : next.snapshotGeneration = report.snapshotGeneration

theorem sameSnapshot_applyRecord (report : RecoveryReport) (record : JournalRecordType × Text) :
    SameSnapshot report (report.applyRecord record) := by
  unfold applyRecord
  by_cases hc : record.1 = .stateCommit
  · rw [if_pos hc]
    cases decodeState record.2 <;> exact ⟨rfl, rfl⟩
  · rw [if_neg hc]
    exact ⟨rfl, rfl⟩

theorem SameSnapshot.trans {a b c : RecoveryReport} (h : SameSnapshot a b) (h' : SameSnapshot b c) :
    SameSnapshot a c := ⟨h'.loaded.trans h.loaded, h'.generation.trans h.generation⟩

theorem sameSnapshot_foldl {α : Type} {f : RecoveryReport → α → RecoveryReport}
    (hf : ∀ report a, SameSnapshot report (f report a)) (as : List α) (report : RecoveryReport) :
    SameSnapshot report (as.foldl f report) := by
  induction as generalizing report with
  | nil => exact ⟨rfl, rfl⟩
  | cons a as ih => exact (hf report a).trans (ih _)

theorem sameSnapshot_applyTail (report : RecoveryReport) (error : Error) (tail : Text) :
    SameSnapshot report (report.applyTail error tail) := by
  unfold applyTail
  simp only
  split_ifs <;> exact ⟨rfl, rfl⟩

theorem sameSnapshot_applyJournal (report : RecoveryReport) (entry : UInt64 × DurableFile) :
    SameSnapshot report (report.applyJournal entry) := by
  unfold applyJournal
  cases readJournal entry.2.content with
  | error fault => cases fault <;> exact ⟨rfl, rfl⟩
  | ok replay =>
    obtain ⟨records, tail⟩ := replay
    have hrecords := sameSnapshot_foldl sameSnapshot_applyRecord records report
    cases tail with
    | none => exact hrecords
    | some stop => exact hrecords.trans (sameSnapshot_applyTail _ stop.1 stop.2)

end RecoveryReport

/-- A recovery of a directory whose journals are as new as its snapshot. -/
theorem recover_keeps_snapshot {store : DurableStore} {directory : Directory} {listed : Bool}
    {report : RecoveryReport} (h : directory.inForce)
    (hr : (store.recover directory listed).1 = .ok report) (hl : report.snapshotLoaded = true) :
    report.snapshotGeneration ≤ report.state.generation.value := by
  have hstate := recover_state hr
  have hby := recover_by store directory listed
  generalize store.recover directory listed = result at hby hr
  cases hby with
  | refused => cases hr
  | reported =>
    obtain rfl := Except.ok.inj hr
    have hsame := RecoveryReport.sameSnapshot_foldl RecoveryReport.sameSnapshot_applyJournal
      directory.journals { ({} : RecoveryReport).applySnapshot directory.snapshot with
        journalPresent := !directory.journals.isEmpty }
    obtain ⟨loaded, hm, hgeneration⟩ :=
      RecoveryReport.applySnapshot_loaded (hsame.loaded.symm.trans hl)
    have hle := h.state hm
    rw [hgeneration] at hle
    rw [hstate]
    show directory.replayed.snapshotGeneration ≤ _
    rw [Directory.replayed, hsame.generation]
    exact hle

namespace DurableStore

variable {store : DurableStore} {directory : Directory} {state : GovernorState}
  {faults : CommitFaults}

/-! ### What a checkpoint leaves -/

theorem loaded_generation {file : DurableFile} (h : Published store.config (encodeState state) file)
    {loaded : GovernorState} (hl : loaded ∈ snapshotStates (some file)) :
    loaded.generation = state.generation := by
  unfold snapshotStates at hl
  simp only [h.content] at hl
  split_ifs at hl
  · cases hl
  · cases hd : decodeState (encodeState state) with
    | error error =>
      rw [hd] at hl
      cases hl
    | ok decoded =>
      rw [hd] at hl
      rw [List.mem_singleton.mp hl]
      exact decodeState_generation hd

theorem publishes_of_loaded {file : DurableFile}
    (h : Published store.config (encodeState state) file)
    (hbound : (encodeState state).length ≤ store.config.maxStateBytes)
    (hwrites : store.config.writes faults.snapshot) {loaded : GovernorState}
    (hl : loaded ∈ snapshotStates (some file)) : store.publishes state faults := by
  refine ⟨hbound, hwrites, fun hempty => ?_⟩
  have hsynced : ({ synced := encodeState state } : DurableFile).content = encodeState state :=
    List.append_nil _
  have hsame : snapshotStates (some file) = snapshotStates (some { synced := encodeState state }) := by
    simp only [snapshotStates, h.content, hsynced]
  rw [hsame, hempty] at hl
  cases hl

/-- What a call leaves that was to make a state durable: a store that serves its directory,
with a snapshot in force that is the one before or has the state's generation. -/
structure Keeps (directory : Directory) (state : GovernorState) (next : DurableStore)
    (left : Directory) : Prop where
  inForce : left.inForce
  serves : Serves next left
  snapshot : ∀ loaded ∈ snapshotStates left.snapshot,
    loaded ∈ snapshotStates directory.snapshot ∨ loaded.generation = state.generation

theorem filesStates_removed (h : Serves store directory)
    (hroom : store.journalEpoch.toNat + 1 < 2 ^ 64) {file : DurableFile}
    (hfile : Published store.config encodeJournalHeader file) {previous : UInt64}
    (hj : store.journal = some previous) (hne : store.journalEpoch + 1 ≠ previous) :
    filesStates ((directory.setJournal (store.journalEpoch + 1) file).removeJournal
      previous).journals = filesStates (store.others directory) := by
  have hothers : store.others directory =
      directory.journals.filter fun entry => entry.1 ≠ previous := by
    refine List.filter_congr fun entry _ => ?_
    simp [hj, eq_comm]
  show filesStates (List.filter _ (directory.setJournal (store.journalEpoch + 1) file).journals) = _
  rw [(lastJournal_rotated h.epoch hroom file).journals, List.filter_append, filesStates_append,
    hothers]
  simp [hne, hfile.content, intact_header.2]

theorem checkpoint_keeps (h : Serves store directory)
    (hroom : store.journalEpoch.toNat + 1 < 2 ^ 64) (hf : directory.inForce)
    (hretired : store.publishes state faults → store.retires faults →
      asNew state.generation (filesStates (store.others directory)))
    (hleft : store.publishes state faults → ¬store.retires faults →
      asNew state.generation (filesStates directory.journals)) :
    Keeps directory state (store.checkpoint directory state faults).2.1
      (store.checkpoint directory state faults).2.2 := by
  have hby := @checkpoint_by store directory state faults h.isOpen
  generalize store.checkpoint directory state faults = result at hby ⊢
  cases hby with
  | refused error => exact ⟨hf, h, fun loaded hl => Or.inl hl⟩
  | published error snapshot hcontent hbound hwrites hstays =>
    refine ⟨fun loaded hl => ?_, serves_skipped (serves_snapshot h _) hroom,
      fun loaded hl => Or.inr (loaded_generation hcontent hl)⟩
    rw [loaded_generation hcontent hl]
    exact hleft (publishes_of_loaded hcontent hbound hwrites hl) fun hr => hstays hr.1
  | kept snapshot journal hcontent hheader hbound hwrites hstays =>
    have hnext := @serves_snapshot _ _ h (some snapshot)
    refine ⟨fun loaded hl => ?_, serves_rotated hnext hroom journal,
      fun loaded hl => Or.inr (loaded_generation hcontent hl)⟩
    rw [loaded_generation hcontent hl, filesStates_rotated hnext hroom hheader]
    rcases hstays with hnone | hsame | hremoved
    · show asNew state.generation (filesStates directory.journals)
      rw [h.unnamed hnone]
      exact asNew_nil
    · -- no index is past the store's own
      obtain ⟨others, file, hl⟩ := h.named _ hsame
      have hle := h.epoch (store.journalEpoch + 1, file) (by rw [hl.journals]; simp)
      have hlt := (lastJournal_rotated h.epoch hroom file).others_lt
        (store.journalEpoch + 1, file) (by rw [hl.journals]; simp)
      exact absurd hlt (UInt64.lt_irrefl _)
    · refine hleft (publishes_of_loaded hcontent hbound hwrites hl) fun hr => ?_
      have htrue := hr.2
      rw [hremoved] at htrue
      cases htrue
  | retired snapshot journal hcontent hheader hbound hwrites hrotates hremoved previous hnamed hne =>
    have hnext := @serves_snapshot _ _ h (some snapshot)
    refine ⟨fun loaded hl => ?_, serves_removed (serves_rotated hnext hroom journal)
      (lastJournal_rotated hnext.epoch hroom journal) rfl hne,
      fun loaded hl => Or.inr (loaded_generation hcontent hl)⟩
    rw [loaded_generation hcontent hl, filesStates_removed hnext hroom hheader hnamed hne]
    exact hretired (publishes_of_loaded hcontent hbound hwrites hl) ⟨hrotates, hremoved⟩

/-! ### What a commit leaves -/

/-- The states that some of a commit's record adds to an intact journal. -/
theorem journalStates_append_some {content : Text} (h : intact content)
    (hb : store.withinBounds state)
    (hroom : (content ++ commitRecord state).length ≤ kMaxFileBytes) (n : ℕ) :
    ∃ added, journalStates (content ++ (commitRecord state).take n) =
        journalStates content ++ added ∧
      (∀ s ∈ added, s.generation = state.generation) ∧
        ((commitRecord state).length ≤ n →
          snapshotStates (some { synced := encodeState state }) ≠ [] → added ≠ []) := by
  have htake : (content ++ (commitRecord state).take n).length ≤ kMaxFileBytes := by
    rw [List.length_append, List.length_take] at *
    omega
  refine ⟨_, journalStates_append_records h htake, fun s hm => ?_, fun hn hloads => ?_⟩
  · obtain ⟨record, hrecord, hs⟩ := List.mem_filterMap.mp hm
    have hmem : record = (JournalRecordType.stateCommit, encodeState state) := by
      rcases journalDecoder.records_take (decode_commit hb.2) n with hr | hr
      · unfold commitRecord at hrecord
        rw [hr] at hrecord
        cases hrecord
      · unfold commitRecord at hrecord
        rw [hr] at hrecord
        exact List.mem_singleton.mp hrecord
    rw [hmem, committedState, if_pos rfl] at hs
    cases hd : decodeState (encodeState state) with
    | error error =>
      rw [hd] at hs
      cases hs
    | ok decoded =>
      rw [hd] at hs
      rw [← Option.some.inj hs]
      exact decodeState_generation hd
  · rw [List.take_of_length_le hn, commitRecord, journalDecoder.records_ok (decode_commit hb.2)]
    cases hd : decodeState (encodeState state) with
    | error error =>
      refine absurd ?_ hloads
      unfold snapshotStates
      have hsynced : ({ synced := encodeState state } : DurableFile).content = encodeState state :=
        List.append_nil _
      simp only [hsynced, hd]
      split_ifs <;> rfl
    | ok decoded =>
      have hcommitted : committedState (.stateCommit, encodeState state) = some decoded := by
        rw [committedState, if_pos rfl, hd]
        rfl
      show List.filterMap committedState [(.stateCommit, encodeState state)] ≠ []
      rw [List.filterMap_cons_some hcommitted]
      exact List.cons_ne_nil _ _

/-- What an acknowledged append tells of the checkpoint that may follow it. -/
structure Acknowledged (store : DurableStore) (directory : Directory) (state : GovernorState)
    (faults : CommitFaults) (appended : DurableStore) (written : Directory) : Prop where
  config : appended.config = store.config
  indices : appended.journalEpoch.toNat + 1 < 2 ^ 64
  appends : store.config.appends faults.append
  checkpoints : appended.recordsSinceSnapshot ≥ appended.config.maxJournalRecordsBeforeSnapshot →
    store.checkpoints ∨ store.journal = none
  others : filesStates (appended.others written) = filesStates (store.others directory)
  last : snapshotStates (some { synced := encodeState state }) ≠ [] →
    asNew state.generation (filesStates written.journals)

theorem CommitsInOrder.takes (hs : store.CommitsInOrder directory state faults)
    (hb : store.withinBounds state) : store.TakesCommit directory state :=
  ⟨hb, hs.indices, hs.journal⟩

/-- The states of the journals after some of a commit's record was appended. -/
theorem Ready.written {index : UInt64} {named : DurableStore} {started : Directory}
    {others : JournalFiles} {file file' : DurableFile}
    (hr : Ready store directory state index named started others file)
    (hb : store.withinBounds state) {n : ℕ}
    (hcontent : file'.content = file.content ++ (commitRecord state).take n) :
    ∃ added, filesStates (started.setJournal index file').journals =
        filesStates directory.journals ++ added ∧
      (∀ s ∈ added, s.generation = state.generation) ∧
        ((commitRecord state).length ≤ n →
          snapshotStates (some { synced := encodeState state }) ≠ [] → added ≠ []) := by
  obtain ⟨added, hadded, hgeneration, hwhole⟩ := journalStates_append_some hr.intact hb hr.room n
  have hwritten := @LastJournal.set started others index file file' hr.last
  have hstarted := hr.states
  refine ⟨added, ?_, hgeneration, hwhole⟩
  rw [hr.last.journals, filesStates_append, filesStates_cons, filesStates_nil,
    List.append_nil] at hstarted
  rw [hwritten.journals, filesStates_append, filesStates_cons, filesStates_nil, List.append_nil,
    hcontent, hadded, ← List.append_assoc, hstarted]

theorem Ready.keeps {index : UInt64} {named : DurableStore} {started : Directory}
    {others : JournalFiles} {file file' : DurableFile}
    (hr : Ready store directory state index named started others file)
    (hb : store.withinBounds state) (hf : directory.inForce)
    (hle : ∀ loaded ∈ snapshotStates directory.snapshot,
      loaded.generation.value ≤ state.generation.value) {n : ℕ}
    (hcontent : file'.content = file.content ++ (commitRecord state).take n) (count : UInt64) :
    Keeps directory state { named with recordsSinceSnapshot := count }
      (started.setJournal index file') := by
  obtain ⟨added, hstates, hgeneration, -⟩ := hr.written hb hcontent
  refine ⟨fun loaded hl => ?_, serves_write hr.serves hr.last hr.journal file' count,
    fun loaded hl => Or.inl (hr.snapshot ▸ hl)⟩
  have hold : loaded ∈ snapshotStates directory.snapshot := hr.snapshot ▸ hl
  rw [hstates]
  refine asNew_append (hf loaded hold) fun s hm => ?_
  rw [hgeneration s hm]
  exact hle loaded hold

theorem append_keeps (h : Serves store directory) (hb : store.withinBounds state)
    (hs : store.CommitsInOrder directory state faults) (hf : directory.inForce)
    (hle : ∀ loaded ∈ snapshotStates directory.snapshot,
      loaded.generation.value ≤ state.generation.value) :
    ∃ status appended written,
      store.append directory .stateCommit (encodeState state) faults = (status, appended, written) ∧
        Keeps directory state appended written ∧
          (status = .ok () → Acknowledged store directory state faults appended written) := by
  have hwhole : ∀ file : DurableFile, (store.config.appended file (commitRecord state)).content =
      file.content ++ (commitRecord state).take (commitRecord state).length := fun file => by
    rw [appended_content, List.take_length]
  have hby := @append_by store directory state faults h (hs.takes hb)
  generalize store.append directory .stateCommit (encodeState state) faults = result at hby ⊢
  cases hby with
  | unready error skipped hskipped =>
    exact ⟨_, skipped, directory, rfl, ⟨hf, hskipped, fun loaded hl => Or.inl hl⟩, nofun⟩
  | torn error index named started others file hr n =>
    exact ⟨_, named, _, rfl, hr.keeps hb hf hle (DurableFile.write_content _ _)
      named.recordsSinceSnapshot, nofun⟩
  | unclosed error index named started others file hr =>
    exact ⟨_, named, _, rfl, hr.keeps hb hf hle (hwhole file) named.recordsSinceSnapshot, nofun⟩
  | acknowledged index named started others file hr happends =>
    obtain ⟨added, hstates, hgeneration, hadded⟩ := hr.written hb (hwhole file)
    refine ⟨_, _, _, rfl, hr.keeps hb hf hle (hwhole file) (named.recordsSinceSnapshot + 1),
      fun _ => ⟨hr.config, hr.indices, happends, hr.checkpoints, ?_, fun hloads => ?_⟩⟩
    · rw [← hr.others_eq]
      exact congrArg filesStates (others_eq (LastJournal.set hr.last) hr.journal)
    · rw [hstates]
      exact asNew_append_of_ne_nil (hadded (Nat.le_refl _) hloads) fun s hm =>
        UInt64.le_of_eq (congrArg _ (hgeneration s hm).symm)

/-- A commit that is refused leaves everything as it is. -/
theorem commit_refused (h : store.isOpen = true → ¬store.withinBounds state) :
    (store.commit directory state faults).2 = (store, directory) := by
  unfold commit
  by_cases ho : store.isOpen = true
  · rw [if_neg (not_not.mpr ho)]
    simp only
    by_cases hstate : (encodeState state).length > store.config.maxStateBytes
    · rw [if_pos hstate]
    · have hrecord : (encodeState state).length > kMaxJournalRecordBytes :=
        Nat.not_le.mp fun hle => h ho ⟨Nat.not_lt.mp hstate, hle⟩
      have hrefused : store.append directory .stateCommit (encodeState state) faults =
          (fail .oversizedInput "journal payload exceeds the supported bound", store,
            directory) := by
        unfold append
        rw [if_neg (not_not.mpr ho), if_pos hrecord]
      rw [if_neg hstate, hrefused]
      rfl
  · rw [if_pos ho]

theorem commit_keeps (h : Serves store directory) (hb : store.withinBounds state)
    (hs : store.CommitsInOrder directory state faults) (hf : directory.inForce)
    (hle : ∀ loaded ∈ snapshotStates directory.snapshot,
      loaded.generation.value ≤ state.generation.value) :
    Keeps directory state (store.commit directory state faults).2.1
      (store.commit directory state faults).2.2 := by
  unfold commit
  rw [if_neg (not_not.mpr h.isOpen)]
  simp only
  rw [if_neg (Nat.not_lt.mpr hb.1)]
  obtain ⟨status, appended, written, ha, hkeeps, hack⟩ := append_keeps h hb hs hf hle
  rw [ha]
  cases status with
  | error error => exact hkeeps
  | ok u =>
    simp only
    by_cases hc : appended.recordsSinceSnapshot ≥ appended.config.maxJournalRecordsBeforeSnapshot
    · rw [if_pos hc]
      have hacked := hack rfl
      have hpublishes : appended.publishes state faults → store.publishes state faults := by
        unfold publishes
        rw [hacked.config]
        exact id
      have hretires : appended.retires faults → store.retires faults := by
        unfold retires
        rw [hacked.config]
        exact id
      have hnext := @checkpoint_keeps appended written state faults hkeeps.serves hacked.indices hkeeps.inForce
        (fun hp hr => by
          rw [hacked.others]
          rcases hacked.checkpoints hc with hcheckpoints | hnone
          · exact hs.retired hcheckpoints hacked.appends (hpublishes hp) (hretires hr)
          · unfold DurableStore.others
            rw [h.unnamed hnone]
            exact asNew_nil)
        (fun hp _ => hacked.last hp.2.2)
      refine ⟨hnext.inForce, hnext.serves, fun loaded hl => ?_⟩
      rcases hnext.snapshot loaded hl with hold | hnew
      · exact hkeeps.snapshot loaded hold
      · exact Or.inr hnew
    · rw [if_neg hc]
      exact hkeeps

end DurableStore

/-! ### Runs -/

namespace Session

/-- The invariant of a run: the journals are as new as the snapshot, and an open store that
knows of a journal serves its directory. -/
structure Kept (s : Session) : Prop where
  inForce : s.directory.inForce
  serves : s.store.isOpen = true → s.store.journal = none ∨ Serves s.store s.directory

variable {s : Session}

theorem Kept.of_follows (h : s.Kept) (ho : s.store.isOpen = true)
    (hf : s.store.Follows s.directory) : Serves s.store s.directory := by
  rcases h.serves ho with hnone | hserves
  · have hempty := hf.recovered hnone
    refine ⟨ho, fun _ => hempty, fun index hi => ?_, fun entry hm => ?_⟩
    · rw [hnone] at hi
      cases hi
    · rw [hempty] at hm
      cases hm
  · exact hserves

theorem journal_none_of_serves {store : DurableStore} {directory : Directory}
    (h : store.journal = none ∨ Serves store directory) (hempty : directory.journals = []) :
    store.journal = none := by
  rcases h with hnone | hserves
  · exact hnone
  · cases hj : store.journal with
    | none => rfl
    | some index =>
      obtain ⟨others, file, hl⟩ := hserves.named index hj
      rw [hl.journals] at hempty
      exact absurd hempty (List.append_ne_nil_of_right_ne_nil _ (List.cons_ne_nil _ _))

theorem kept_recover (h : s.Kept) (listed : Bool) : (s.step (.recover listed)).Kept := by
  show Kept { directory := s.directory, store := (s.store.recover s.directory listed).2 }
  have hby := recover_by s.store s.directory listed
  generalize hr : s.store.recover s.directory listed = result at hby
  cases hby with
  | refused => exact h
  | reported hopen =>
    have hserves := h.serves hopen
    exact ⟨h.inForce, fun _ =>
      Or.inr (DurableStore.serves_recovered (journal_none_of_serves hserves) hr)⟩

theorem kept_open (h : s.Kept) (config : DurableConfig) (created : Bool) :
    (s.step (.open config created)).Kept := by
  show Kept { directory := s.directory, store := (s.store.open config created).2 }
  unfold DurableStore.open
  by_cases ho : s.store.isOpen = true
  · rw [if_pos ho]
    exact h
  rw [if_neg ho]
  by_cases hd : config.directory = []
  · rw [if_pos hd]
    exact h
  rw [if_neg hd]
  by_cases hc : ¬created
  · rw [if_pos hc]
    exact ⟨h.inForce, fun hopen => absurd hopen ho⟩
  · rw [if_neg hc]
    exact ⟨h.inForce, fun _ => Or.inl rfl⟩

theorem kept_crash (h : s.Kept) {keep : Option UInt64 → ℕ} (hc : s.directory.losesNothing keep) :
    (s.step (.crash keep)).Kept := by
  refine ⟨fun loaded hl => ?_, nofun⟩
  show asNew loaded.generation (filesStates (s.directory.crash keep).journals)
  rw [hc.2]
  exact h.inForce loaded (hc.1 ▸ hl)

theorem Kept.of_keeps {state : GovernorState} {store : DurableStore} {directory : Directory}
    (h : DurableStore.Keeps s.directory state store directory) :
    Kept { directory, store } := ⟨h.inForce, fun _ => Or.inr h.serves⟩

/-- What one call keeps; a snapshot it publishes is of its own state. -/
theorem kept_step (h : s.Kept) (call : StoreCall)
    (hle : ∀ state ∈ call.state, ∀ loaded ∈ snapshotStates s.directory.snapshot,
      loaded.generation.value ≤ state.generation.value) (hc : s.inOrder call) :
    (s.step call).Kept ∧ ∀ loaded ∈ snapshotStates (s.step call).directory.snapshot,
      loaded ∈ snapshotStates s.directory.snapshot ∨
        ∃ state ∈ call.state, loaded.generation = state.generation := by
  cases call with
  | «open» config created => exact ⟨kept_open h config created, fun loaded hl => Or.inl hl⟩
  | recover listed => exact ⟨kept_recover h listed, fun loaded hl => Or.inl hl⟩
  | close => exact ⟨⟨h.inForce, nofun⟩, fun loaded hl => Or.inl hl⟩
  | crash keep =>
    refine ⟨kept_crash h hc, fun loaded hl => Or.inl ?_⟩
    rw [← hc.1]
    exact hl
  | commit state faults =>
    by_cases hb : s.store.isOpen = true ∧ s.store.withinBounds state
    · have hc := hc hb.1 hb.2
      have hkeeps := DurableStore.commit_keeps (h.of_follows hb.1 hc.toFollows) hb.2 hc h.inForce
        (hle state rfl)
      exact ⟨Kept.of_keeps hkeeps, fun loaded hl =>
        (hkeeps.snapshot loaded hl).imp_right fun hg => ⟨state, rfl, hg⟩⟩
    · have hsame := @DurableStore.commit_refused s.store s.directory state faults
        fun ho hw => hb ⟨ho, hw⟩
      unfold step
      simp only [hsame]
      exact ⟨h, fun loaded hl => Or.inl hl⟩
  | checkpoint state faults =>
    by_cases ho : s.store.isOpen = true
    · have hc := hc ho
      have hroom : s.store.journalEpoch.toNat + 1 < 2 ^ 64 := by
        have hindices := hc.indices
        omega
      have hkeeps := @DurableStore.checkpoint_keeps s.store s.directory state faults
        (h.of_follows ho hc.toFollows) hroom h.inForce hc.retired hc.left
      exact ⟨Kept.of_keeps hkeeps, fun loaded hl =>
        (hkeeps.snapshot loaded hl).imp_right fun hg => ⟨state, rfl, hg⟩⟩
    · have hsame : (s.store.checkpoint s.directory state faults).2 = (s.store, s.directory) := by
        unfold DurableStore.checkpoint
        rw [if_pos ho]
      unfold step
      simp only [hsame]
      exact ⟨h, fun loaded hl => Or.inl hl⟩

/-- From a state that keeps its snapshot, every later recovery does: the states still to come
are as new as the snapshot. -/
theorem calls_keep_snapshot {coming : List StoreCall} (hk : s.Kept)
    (hle : ∀ state ∈ coming.filterMap StoreCall.state,
      ∀ loaded ∈ snapshotStates s.directory.snapshot,
        loaded.generation.value ≤ state.generation.value)
    (hordered : (coming.filterMap StoreCall.state).Pairwise fun a b =>
      a.generation.value ≤ b.generation.value)
    (hc : ∀ call ∈ calls step s coming, call.1.inOrder call.2) :
    ∀ call ∈ calls step s coming, call.1.Kept := by
  induction coming generalizing s with
  | nil => exact fun call hm => absurd hm List.not_mem_nil
  | cons first rest ih =>
    intro call hm
    rw [calls_cons] at hm hc
    rcases List.mem_cons.mp hm with rfl | hm
    · exact hk
    obtain ⟨hnext, hsnapshot⟩ := kept_step hk first (fun state hs => hle state
        (List.mem_filterMap.mpr ⟨first, List.mem_cons_self, hs⟩)) (hc _ List.mem_cons_self)
    refine ih hnext (fun state hs loaded hl => ?_) ?_
      (fun call hm => hc call (List.mem_cons_of_mem _ hm)) call hm
    · rcases hsnapshot loaded hl with hold | ⟨own, hown, hg⟩
      · refine hle state ?_ loaded hold
        obtain ⟨later, hlater, hs⟩ := List.mem_filterMap.mp hs
        exact List.mem_filterMap.mpr ⟨later, List.mem_cons_of_mem first hlater, hs⟩
      · rw [List.filterMap_cons_some hown] at hordered
        rw [hg]
        exact (List.pairwise_cons.mp hordered).1 state hs
    · exact hordered.sublist ((List.sublist_cons_self first rest).filterMap _)

/-- Every recovery of the calls to come keeps to the snapshot it loads. -/
def runKeepsSnapshot (s : Session) (coming : List StoreCall) : Prop :=
  ∀ call ∈ calls step s coming, call.1.keepsSnapshot call.2

/-- A snapshot stays in force over every run of calls and crashes whose states come in the
order of their generations, and whose checkpoints leave no journal with older states. -/
theorem run_keeps_snapshot (coming : List StoreCall)
    (hordered : (coming.filterMap StoreCall.state).Pairwise fun a b =>
      a.generation.value ≤ b.generation.value)
    (h : ∀ call ∈ calls step {} coming, call.1.inOrder call.2) :
    runKeepsSnapshot {} coming := by
  intro call hm
  have hkept := @calls_keep_snapshot {} coming ⟨fun loaded hl => absurd hl List.not_mem_nil, nofun⟩
    (fun _ _ loaded hl => absurd hl List.not_mem_nil) hordered h call hm
  obtain ⟨s, last⟩ := call
  cases last with
  | recover listed =>
    intro report hr hl
    cases hresult : (s.store.recover s.directory listed).1 with
    | error error =>
      rw [hresult] at hr
      cases hr
    | ok found =>
      rw [hresult] at hr
      obtain rfl := Option.some.inj hr
      exact recover_keeps_snapshot hkept.inForce hresult hl
  | _ => trivial

/-- A store that takes a snapshot at every other commit. -/
def sampleOpen : StoreCall :=
  .open { directory := ascii "d", maxJournalRecordsBeforeSnapshot := 2 } true

/-- The checkpoint gets no further than its snapshot. -/
def snapshotOnly : CommitFaults := { checkpointRotate := some .create }

/-- A crash between the snapshot of a commit and its new journal loses nothing. -/
theorem run_keeps_snapshot_committed :
    runKeepsSnapshot {} [sampleOpen, .recover true, .commit (History.sampleState 1) {},
      .commit (History.sampleState 2) snapshotOnly, .crash fun _ => 0, sampleOpen, .recover true] :=
  run_keeps_snapshot _ (by decide) (by decide +kernel)

/-- Two commits with their checkpoints; the first one's journal cannot be removed. -/
def strayJournal : List StoreCall :=
  [.open { directory := ascii "d", maxJournalRecordsBeforeSnapshot := 1 } true, .recover true,
    .commit (History.sampleState 1) { removed := false }, .commit (History.sampleState 2) {},
    .close, sampleOpen, .recover true]

/-- The recovery loads the snapshot of the second state and reports the first one, which the
journal that was left behind holds. -/
theorem stray_journal_overrides_snapshot :
    (strayJournal.filterMap StoreCall.state).Pairwise
        (fun a b => a.generation.value ≤ b.generation.value) ∧
      ¬runKeepsSnapshot {} strayJournal := by
  unfold runKeepsSnapshot
  decide +kernel

end Session

end IncastGovernor
