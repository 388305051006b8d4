import IncastGovernor.Durable.Checkpoint
import IncastGovernor.Durable.Decoded
import IncastGovernor.Durable.Reachable

/-! What a store has room for. A commit goes through the journal, whose records are bounded
below the bound that the configuration sets for a state; a checkpoint does not. So a run of
a governor can reach a state that a checkpoint stores and that no commit ever will. -/

namespace IncastGovernor

open Codec Foundation

/-! ### The journals around one of them -/

section Journals

variable {index : UInt64} {file : DurableFile} {journals : JournalFiles}

/-- A journal is put between those before it and those behind it. -/
theorem putJournal_eq (h : journals.Pairwise fun a b => a.1 < b.1) :
    putJournal index file journals =
      journals.filter (fun entry => entry.1 < index) ++
        (index, file) :: journals.filter fun entry => index < entry.1 := by
  induction journals with
  | nil => rfl
  | cons first rest ih =>
    obtain ⟨hfirst, hrest⟩ := List.pairwise_cons.mp h
    unfold putJournal
    by_cases hlt : first.1 < index
    · have hbehind : ¬index < first.1 := fun hgt => UInt64.lt_irrefl _ (UInt64.lt_trans hlt hgt)
      rw [if_pos hlt, ih hrest]
      simp [hlt, hbehind]
    · have hnone : rest.filter (fun entry => entry.1 < index) = [] := by
        refine List.filter_eq_nil_iff.mpr fun entry hm => ?_
        have hle : index < entry.1 :=
          UInt64.lt_of_le_of_lt (UInt64.not_lt.mp hlt) (hfirst entry hm)
        have hnot : ¬entry.1 < index := fun hgt => UInt64.lt_irrefl _ (UInt64.lt_trans hle hgt)
        simp [hnot]
      have hall : rest.filter (fun entry => index < entry.1) = rest := by
        refine List.filter_eq_self.mpr fun entry hm => ?_
        have hle : index < entry.1 :=
          UInt64.lt_of_le_of_lt (UInt64.not_lt.mp hlt) (hfirst entry hm)
        simp [hle]
      by_cases heq : first.1 = index
      · rw [if_neg hlt, if_pos heq, List.filter_cons_of_neg (by simpa using hlt), hnone,
          List.filter_cons_of_neg (by simp [heq]), hall]
        rfl
      · have hgt : index < first.1 :=
          UInt64.lt_of_le_of_ne (UInt64.not_lt.mp hlt) fun h => heq h.symm
        rw [if_neg hlt, if_neg heq, List.filter_cons_of_neg (by simpa using hlt), hnone,
          List.filter_cons_of_pos (by simpa using hgt), hall]
        rfl

/-- The journals of other indices are not touched. -/
theorem filter_putJournal {p : UInt64 → Bool} (hp : p index = false) :
    (putJournal index file journals).filter (fun entry => p entry.1) =
      journals.filter fun entry => p entry.1 := by
  induction journals with
  | nil =>
    show List.filter _ [(index, file)] = _
    rw [List.filter_cons_of_neg (by simp [hp])]
  | cons first rest ih =>
    unfold putJournal
    by_cases hlt : first.1 < index
    · rw [if_pos hlt, List.filter_cons, List.filter_cons, ih]
    · rw [if_neg hlt]
      by_cases heq : first.1 = index
      · rw [if_pos heq, List.filter_cons_of_neg (by simp [hp]),
          List.filter_cons_of_neg (by simp [heq, hp])]
      · rw [if_neg heq, List.filter_cons_of_neg (by simp [hp])]

/-- The states around one journal. -/
theorem filesStates_putJournal (h : journals.Pairwise fun a b => a.1 < b.1) :
    filesStates (putJournal index file journals) =
      filesStates (journals.filter fun entry => entry.1 < index) ++
        (journalStates file.content ++
          filesStates (journals.filter fun entry => index < entry.1)) := by
  rw [putJournal_eq h, filesStates_append, filesStates_cons]

/-- The other journals are those before it and those behind it. -/
theorem filter_ne_eq (h : journals.Pairwise fun a b => a.1 < b.1) :
    journals.filter (fun entry => entry.1 ≠ index) =
      journals.filter (fun entry => entry.1 < index) ++
        journals.filter fun entry => index < entry.1 := by
  have hput := @filter_putJournal index {} journals (fun other => decide (other ≠ index)) (by simp)
  rw [← hput, putJournal_eq h, List.filter_append, List.filter_cons_of_neg (by simp),
    List.filter_filter, List.filter_filter]
  congr 1
  · refine List.filter_congr fun entry _ => ?_
    by_cases hlt : entry.1 < index
    · have hne : entry.1 ≠ index := fun heq => UInt64.lt_irrefl _ (heq ▸ hlt)
      simp [hlt, hne]
    · simp [hlt]
  · refine List.filter_congr fun entry _ => ?_
    by_cases hlt : index < entry.1
    · have hne : entry.1 ≠ index := fun heq => UInt64.lt_irrefl _ (heq ▸ hlt)
      simp [hlt, hne]
    · simp [hlt]

theorem journal_setJournal (directory : Directory) :
    (directory.setJournal index file).journal index = some file := by
  have hbefore : (directory.journals.filter fun entry => entry.1 < index).find?
      (fun entry => entry.1 = index) = none := by
    rw [List.find?_eq_none]
    intro entry hm heq
    have hlt := of_decide_eq_true (List.mem_filter.mp hm).2
    rw [of_decide_eq_true heq] at hlt
    exact UInt64.lt_irrefl _ hlt
  show ((putJournal index file directory.journals).find? _).map _ = _
  rw [putJournal_eq directory.ascending, List.find?_append, hbefore]
  simp

end Journals

/-! ### Operations whose file operations succeed -/

/-- The file a write publishes. -/
def DurableConfig.published (config : DurableConfig) (content : Text) : DurableFile :=
  if config.fsyncOnCommit then { synced := content } else { cached := content }

@[simp] theorem published_content (config : DurableConfig) (content : Text) :
    (config.published content).content = content := by
  unfold DurableConfig.published DurableFile.content
  split_ifs
  · exact List.append_nil _
  · rfl

namespace DurableStore

variable {store : DurableStore} {directory : Directory} {state : GovernorState}

/-- The journal a commit goes to. -/
def target (store : DurableStore) : UInt64 := store.journal.getD (store.journalEpoch + 1)

/-- The store with a journal to append to. -/
def named (store : DurableStore) : DurableStore :=
  match store.journal with
  | none => store.rotated
  | some _ => store

/-- The directory with that journal. -/
def started (store : DurableStore) (directory : Directory) : Directory :=
  match store.journal with
  | none => directory.setJournal (store.journalEpoch + 1)
      (store.config.published encodeJournalHeader)
  | some _ => directory

/-- What the journal holds that a commit goes to. -/
def current (store : DurableStore) (directory : Directory) : Text :=
  match store.journal with
  | none => encodeJournalHeader
  | some index => ((directory.journal index).getD {}).content

/-- The directory behind the append of a commit. -/
def written (store : DurableStore) (directory : Directory) (state : GovernorState) : Directory :=
  (store.started directory).setJournal store.target
    (store.config.appended (((store.started directory).journal store.target).getD {})
      (commitRecord state))

/-- The commit is followed by a checkpoint. -/
def checkpointsNext (store : DurableStore) : Prop := store.named.checkpoints

instance (store : DurableStore) : Decidable store.checkpointsNext := by
  delta checkpointsNext; infer_instance

/-- The journal stays within what a recovery reads. -/
def hasRoom (store : DurableStore) (directory : Directory) (state : GovernorState) : Prop :=
  (store.current directory ++ commitRecord state).length ≤ kMaxFileBytes

instance (store : DurableStore) (directory : Directory) (state : GovernorState) :
    Decidable (store.hasRoom directory state) := by
  delta hasRoom; infer_instance

theorem ensureJournal_succeeds (store : DurableStore) (directory : Directory) :
    store.ensureJournal directory none =
      (.ok store.target, store.named, store.started directory) := by
  unfold ensureJournal target named started
  cases store.journal with
  | none => rfl
  | some index => rfl

theorem named_isOpen (store : DurableStore) : store.named.isOpen = store.isOpen := by
  unfold named
  cases store.journal <;> rfl

theorem named_config (store : DurableStore) : store.named.config = store.config := by
  unfold named
  cases store.journal <;> rfl

theorem append_succeeds (hopen : store.isOpen = true)
    (hrecord : (encodeState state).length ≤ kMaxJournalRecordBytes) :
    store.append directory .stateCommit (encodeState state) {} =
      (.ok (), { store.named with
        recordsSinceSnapshot := store.named.recordsSinceSnapshot + 1 },
          store.written directory state) := by
  have hensured : store.ensureJournal directory ({} : CommitFaults).rotate =
      (.ok store.target, store.named, store.started directory) :=
    ensureJournal_succeeds store directory
  unfold append
  rw [if_neg (not_not.mpr hopen), if_neg (Nat.not_lt.mpr hrecord), hensured]
  rfl

/-- A commit past the bound of a record is refused, whatever the store and the file
operations. -/
theorem commit_oversized (hrecord : kMaxJournalRecordBytes < (encodeState state).length)
    (faults : CommitFaults) : (store.commit directory state faults).1 ≠ .ok () := by
  unfold commit append
  by_cases hopen : store.isOpen = true
  · rw [if_neg (not_not.mpr hopen)]
    by_cases hstate : (encodeState state).length > store.config.maxStateBytes
    · simp only [if_pos hstate]
      exact fun h => by cases h
    · simp only [if_neg hstate, if_neg (not_not.mpr hopen), if_pos hrecord]
      exact fun h => by cases h
  · rw [if_pos hopen]
    exact fun h => by cases h

/-- The index of the journal that the store appends to, if it has one. -/
def AtEpoch (store : DurableStore) : Prop :=
  ∀ index ∈ store.journal, store.journalEpoch = index

/-- A checkpoint publishes the snapshot and starts a journal. -/
def checkpointed (store : DurableStore) (directory : Directory) (state : GovernorState) :
    Directory :=
  { directory with snapshot := some (store.config.published (encodeState state)) }.setJournal
    (store.journalEpoch + 1) (store.config.published encodeJournalHeader)

/-- Then it removes the journal before, if the store had one. -/
def retired (store : DurableStore) (directory : Directory) (state : GovernorState) : Directory :=
  match store.journal with
  | none => store.checkpointed directory state
  | some previous => (store.checkpointed directory state).removeJournal previous

theorem succ_ne (index : UInt64) : index + 1 ≠ index := by
  intro h
  have hone : (1 : UInt64) = 0 := by
    rw [← UInt64.add_right_inj index, h, UInt64.add_zero]
  cases hone

theorem checkpoint_succeeds (hopen : store.isOpen = true) (hepoch : store.AtEpoch)
    (hbound : (encodeState state).length ≤ store.config.maxStateBytes) :
    store.checkpoint directory state {} = (.ok (), store.rotated, store.retired directory state) := by
  have hsnapped : store.writeSnapshotAtomic directory state ({} : CommitFaults).snapshot =
      (.ok (), { directory with
        snapshot := some (store.config.published (encodeState state)) }) := by
    unfold writeSnapshotAtomic
    simp only [if_neg (Nat.not_lt.mpr hbound)]
    rfl
  have hrotated : store.rotateJournal { directory with
      snapshot := some (store.config.published (encodeState state)) }
        ({} : CommitFaults).checkpointRotate =
      (.ok (), store.rotated, store.checkpointed directory state) := rfl
  unfold checkpoint retired
  rw [if_neg (not_not.mpr hopen), hsnapped]
  simp only [hrotated]
  cases hj : store.journal with
  | none => rfl
  | some previous =>
    have hne : store.rotated.journal ≠ some previous := by
      intro heq
      have hnext : store.journalEpoch + 1 = previous := Option.some.inj heq
      rw [hepoch previous hj] at hnext
      exact succ_ne previous hnext
    simp only
    rw [if_pos ⟨hne, trivial⟩]

theorem checkpoint_oversized (hopen : store.isOpen = true)
    (hbound : store.config.maxStateBytes < (encodeState state).length) :
    (store.checkpoint directory state {}).2 = (store, directory) := by
  unfold checkpoint writeSnapshotAtomic
  rw [if_neg (not_not.mpr hopen)]
  simp only [if_pos hbound]
  rfl

theorem commit_succeeds (hopen : store.isOpen = true)
    (hbound : (encodeState state).length ≤ store.config.maxStateBytes)
    (hrecord : (encodeState state).length ≤ kMaxJournalRecordBytes) :
    store.commit directory state {} =
      if store.checkpointsNext then
        ({ store.named with
          recordsSinceSnapshot := store.named.recordsSinceSnapshot + 1 }).checkpoint
            (store.written directory state) state {}
      else (.ok (), { store.named with
        recordsSinceSnapshot := store.named.recordsSinceSnapshot + 1 },
          store.written directory state) := by
  unfold commit
  rw [if_neg (not_not.mpr hopen)]
  simp only [if_neg (Nat.not_lt.mpr hbound), append_succeeds hopen hrecord]
  rfl

end DurableStore

/-! ### Directories without a torn record -/

/-- A journal of commits: it ends with a whole record or is past what a recovery reads, and its
states can be encoded. -/
structure WholeJournal (content : Text) : Prop where
  untorn : intact content ∨ kMaxFileBytes < content.length
  encodable : ∀ held ∈ journalStates content, held.Encodable

theorem wholeJournal_header : WholeJournal encodeJournalHeader := by
  refine ⟨Or.inl intact_header.1, fun held hm => ?_⟩
  rw [intact_header.2] at hm
  cases hm

theorem WholeJournal.intact {content : Text} (h : WholeJournal content)
    (hlen : content.length ≤ kMaxFileBytes) : intact content :=
  h.untorn.resolve_right (Nat.not_lt.mpr hlen)

theorem WholeJournal.append {content : Text} {state : GovernorState} (h : WholeJournal content)
    (hrecord : (encodeState state).length ≤ kMaxJournalRecordBytes) :
    WholeJournal (content ++ DurableStore.commitRecord state) := by
  by_cases hmax : (content ++ DurableStore.commitRecord state).length ≤ kMaxFileBytes
  · have hlen : content.length ≤ kMaxFileBytes := by
      rw [List.length_append] at hmax
      omega
    have hrecords := journalDecoder.records_ok (decode_commit hrecord)
    refine ⟨Or.inl ?_, fun held hm => ?_⟩
    · obtain ⟨records, -, hread⟩ := readJournal_append (h.intact hlen) hmax
      rw [IncastGovernor.intact, hread, DurableStore.commitRecord, hrecords]
      rfl
    · rw [journalStates_append_records (h.intact hlen) hmax, DurableStore.commitRecord, hrecords] at hm
      rcases List.mem_append.mp hm with hm | hm
      · exact h.encodable held hm
      · obtain ⟨record, hm, hheld⟩ := List.mem_filterMap.mp hm
        rw [List.mem_singleton.mp hm, committedState, if_pos rfl] at hheld
        have hsmall : (encodeState state).length < 2 ^ 32 :=
          Nat.lt_of_le_of_lt hrecord (by decide)
        cases hd : decodeState (encodeState state) with
        | error error =>
          rw [hd] at hheld
          cases hheld
        | ok found =>
          rw [hd] at hheld
          exact Option.some.inj hheld ▸ encodable_of_decoded hsmall hd
  · refine ⟨Or.inr (Nat.not_le.mp hmax), fun held hm => ?_⟩
    rw [journalStates, readJournal, if_pos (Nat.not_le.mp hmax)] at hm
    cases hm

theorem snapshot_encodable {file : DurableFile} {state held : GovernorState}
    (hfile : file.content = encodeState state) (hm : held ∈ snapshotStates (some file)) :
    held.Encodable := by
  unfold snapshotStates at hm
  simp only [hfile] at hm
  split_ifs at hm with hlen
  · cases hm
  · have hsmall : (encodeState state).length < 2 ^ 32 :=
      Nat.lt_of_le_of_lt (Nat.not_lt.mp hlen) (by decide)
    cases hd : decodeState (encodeState state) with
    | error error =>
      rw [hd] at hm
      cases hm
    | ok found =>
      rw [hd] at hm
      obtain rfl : held = found := List.mem_singleton.mp hm
      exact encodable_of_decoded hsmall hd

/-- What a directory holds after file operations that all succeeded. -/
structure Directory.Whole (directory : Directory) : Prop where
  journals : ∀ entry ∈ directory.journals, WholeJournal entry.2.content
  snapshot : ∀ held ∈ snapshotStates directory.snapshot, held.Encodable

namespace Directory.Whole

variable {directory : Directory}

theorem setJournal (h : directory.Whole) (index : UInt64) {file : DurableFile}
    (hfile : WholeJournal file.content) : (directory.setJournal index file).Whole := by
  refine ⟨fun entry hm => ?_, h.snapshot⟩
  rcases mem_putJournal hm with rfl | hm
  · exact hfile
  · exact h.journals entry hm

theorem removeJournal (h : directory.Whole) (index : UInt64) :
    (directory.removeJournal index).Whole :=
  ⟨fun entry hm => h.journals entry (List.mem_of_mem_filter hm), h.snapshot⟩

theorem journal (h : directory.Whole) {index : UInt64} {file : DurableFile}
    (hj : directory.journal index = some file) : WholeJournal file.content := by
  obtain ⟨entry, hfind, rfl⟩ := Option.map_eq_some_iff.mp hj
  exact h.journals entry (List.mem_of_find?_eq_some hfind)

theorem setSnapshot (h : directory.Whole) {file : DurableFile} {state : GovernorState}
    (hfile : file.content = encodeState state) :
    ({ directory with snapshot := some file } : Directory).Whole :=
  ⟨h.journals, fun _ hm => snapshot_encodable hfile hm⟩

/-- The state that such a directory holds can be encoded. -/
theorem state (h : directory.Whole) : directory.state.Encodable := by
  have hdefault : ({} : GovernorState).Encodable := by decide +kernel
  have hheld : ∀ held ∈ snapshotStates directory.snapshot ++ filesStates directory.journals,
      held.Encodable := by
    intro held hm
    rcases List.mem_append.mp hm with hm | hm
    · exact h.snapshot held hm
    · obtain ⟨entry, hentry, hm⟩ := List.mem_flatMap.mp hm
      exact (h.journals entry hentry).encodable held hm
  rw [Directory.state, lastState_eq_getLast]
  cases hlast : (snapshotStates directory.snapshot ++ filesStates directory.journals).getLast? with
  | none => exact hdefault
  | some held => exact hheld held (List.mem_of_getLast? hlast)

end Directory.Whole

theorem journal_removeJournal (directory : Directory) {index other : UInt64} (h : index ≠ other) :
    (directory.removeJournal other).journal index = directory.journal index := by
  show ((directory.journals.filter _).find? _).map _ = _
  rw [List.find?_filter, Directory.journal]
  congr 2
  funext entry
  by_cases heq : entry.1 = index
  · simp [heq, h]
  · simp [heq]

namespace DurableStore

variable {store : DurableStore} {directory : Directory} {state : GovernorState}

/-- The journal that a store names is there. -/
def Finds (store : DurableStore) (directory : Directory) : Prop :=
  ∀ index ∈ store.journal, ∃ file, directory.journal index = some file

theorem named_journal (store : DurableStore) : store.named.journal = some store.target := by
  unfold named target
  cases hj : store.journal with
  | none => rfl
  | some index => exact hj

theorem named_atEpoch (h : store.AtEpoch) : store.named.AtEpoch := by
  intro index hi
  rw [named_journal] at hi
  obtain rfl := Option.some.inj hi
  unfold named target
  cases hj : store.journal with
  | none => rfl
  | some index => exact h index hj

theorem started_journal (hfinds : store.Finds directory) :
    ∃ file, (store.started directory).journal store.target = some file ∧
      file.content = store.current directory := by
  unfold started target current
  cases hj : store.journal with
  | none => exact ⟨_, journal_setJournal directory, published_content _ _⟩
  | some index =>
    obtain ⟨file, hfile⟩ := hfinds index hj
    refine ⟨file, hfile, ?_⟩
    show file.content = ((directory.journal index).getD {}).content
    rw [hfile]
    rfl

theorem started_filter {p : UInt64 → Bool} (hp : p store.target = false) :
    (store.started directory).journals.filter (fun entry => p entry.1) =
      directory.journals.filter fun entry => p entry.1 := by
  unfold target at hp
  unfold started
  cases hj : store.journal with
  | none =>
    rw [hj] at hp
    exact filter_putJournal hp
  | some index => rfl

theorem started_snapshot (store : DurableStore) (directory : Directory) :
    (store.started directory).snapshot = directory.snapshot := by
  unfold started
  cases store.journal <;> rfl

theorem current_whole (hwhole : directory.Whole) (hfinds : store.Finds directory) :
    WholeJournal (store.current directory) := by
  unfold current
  cases hj : store.journal with
  | none => exact wholeJournal_header
  | some index =>
    obtain ⟨file, hfile⟩ := hfinds index hj
    simp only
    rw [hfile]
    exact hwhole.journal hfile

/-- The journal of a commit holds its record behind what it held. -/
theorem written_eq (hfinds : store.Finds directory) :
    ∃ file, store.written directory state =
        (store.started directory).setJournal store.target file ∧
      file.content = store.current directory ++ commitRecord state := by
  obtain ⟨file, hfile, hcontent⟩ := started_journal hfinds
  refine ⟨_, rfl, ?_⟩
  rw [appended_content, hfile]
  exact congrArg (fun content => content ++ commitRecord state) hcontent

theorem written_whole (hwhole : directory.Whole) (hfinds : store.Finds directory)
    (hrecord : (encodeState state).length ≤ kMaxJournalRecordBytes) :
    (store.written directory state).Whole := by
  obtain ⟨file, hwritten, hcontent⟩ := @written_eq store directory state hfinds
  have hstarted : (store.started directory).Whole := by
    unfold started
    cases store.journal with
    | none =>
      apply hwhole.setJournal
      rw [published_content]
      exact wholeJournal_header
    | some index => exact hwhole
  rw [hwritten]
  apply hstarted.setJournal
  rw [hcontent]
  exact (current_whole hwhole hfinds).append hrecord

theorem retired_whole (hwhole : directory.Whole) : (store.retired directory state).Whole := by
  have hstarted : (store.checkpointed directory state).Whole := by
    apply (hwhole.setSnapshot (published_content _ _)).setJournal
    rw [published_content]
    exact wholeJournal_header
  unfold retired
  cases store.journal with
  | none => exact hstarted
  | some previous => exact hstarted.removeJournal previous

theorem finds_written (hfinds : store.Finds directory) (count : UInt64) :
    ({ store.named with recordsSinceSnapshot := count }).Finds
      (store.written directory state) := by
  obtain ⟨file, hwritten, -⟩ := @written_eq store directory state hfinds
  intro index hi
  have htarget : some index = store.named.journal := hi.symm
  rw [named_journal] at htarget
  obtain rfl := Option.some.inj htarget
  exact ⟨file, by rw [hwritten]; exact journal_setJournal _⟩

theorem finds_retired (hepoch : store.AtEpoch) :
    store.rotated.Finds (store.retired directory state) := by
  intro index hi
  obtain rfl : store.journalEpoch + 1 = index := Option.some.inj hi
  have hstarted : (store.checkpointed directory state).journal (store.journalEpoch + 1) =
      some (store.config.published encodeJournalHeader) := journal_setJournal _
  unfold retired
  cases hj : store.journal with
  | none => exact ⟨_, hstarted⟩
  | some previous =>
    have hne : store.journalEpoch + 1 ≠ previous := hepoch previous hj ▸ succ_ne _
    exact ⟨_, (journal_removeJournal _ hne).trans hstarted⟩

theorem rotated_atEpoch (store : DurableStore) : store.rotated.AtEpoch :=
  fun _ hi => Option.some.inj hi

end DurableStore

/-! ### Runs whose file operations succeed -/

/-- A call of a store whose file operations all succeed. -/
def StoreCall.succeeds : StoreCall → Prop
  | .open _ created => created = true
  | .recover listed => listed = true
  | .commit _ faults | .checkpoint _ faults => faults = {}
  | .close => True
  | .crash _ => False

namespace Session

/-- The invariant of such a run: no journal is torn, and the store's journal is there. -/
structure Whole (s : Session) : Prop where
  directory : s.directory.Whole
  epoch : s.store.AtEpoch
  finds : s.store.Finds s.directory

variable {s : Session}

/-- A store that names no journal. -/
theorem whole_unnamed {store : DurableStore} {directory : Directory} (h : directory.Whole)
    (hnone : store.journal = none) : Whole { directory, store } := by
  have hunnamed : ∀ index, index ∉ store.journal := by
    intro index hi
    rw [hnone] at hi
    cases hi
  exact ⟨h, fun index hi => absurd hi (hunnamed index), fun index hi => absurd hi (hunnamed index)⟩

theorem whole_checkpoint (h : s.Whole) (state : GovernorState) :
    (s.step (.checkpoint state {})).Whole := by
  show Whole { directory := (s.store.checkpoint s.directory state {}).2.2
               store := (s.store.checkpoint s.directory state {}).2.1 }
  by_cases ho : s.store.isOpen = true
  · by_cases hbound : (encodeState state).length ≤ s.store.config.maxStateBytes
    · rw [DurableStore.checkpoint_succeeds ho h.epoch hbound]
      exact ⟨DurableStore.retired_whole h.directory, s.store.rotated_atEpoch,
        DurableStore.finds_retired h.epoch⟩
    · rw [DurableStore.checkpoint_oversized ho (Nat.not_le.mp hbound)]
      exact h
  · unfold DurableStore.checkpoint
    rw [if_pos ho]
    exact h

theorem whole_commit (h : s.Whole) (state : GovernorState) :
    (s.step (.commit state {})).Whole := by
  show Whole { directory := (s.store.commit s.directory state {}).2.2
               store := (s.store.commit s.directory state {}).2.1 }
  by_cases hb : s.store.isOpen = true ∧ s.store.withinBounds state
  · obtain ⟨ho, hbound, hrecord⟩ := hb
    have hwritten : Whole {
        directory := s.store.written s.directory state
        store := { s.store.named with
          recordsSinceSnapshot := s.store.named.recordsSinceSnapshot + 1 } } :=
      ⟨DurableStore.written_whole h.directory h.finds hrecord,
        DurableStore.named_atEpoch h.epoch, DurableStore.finds_written h.finds _⟩
    rw [DurableStore.commit_succeeds ho hbound hrecord]
    by_cases hc : s.store.checkpointsNext
    · rw [if_pos hc]
      exact whole_checkpoint hwritten state
    · rw [if_neg hc]
      exact hwritten
  · rw [DurableStore.commit_refused fun ho hw => hb ⟨ho, hw⟩]
    exact h

theorem whole_recover (h : s.Whole) : (s.step (.recover true)).Whole := by
  show Whole { s with store := (s.store.recover s.directory true).2 }
  have hby := recover_by s.store s.directory true
  generalize s.store.recover s.directory true = result at hby
  cases hby with
  | refused => exact h
  | reported =>
    unfold DurableStore.resumed
    cases hlast : s.directory.journals.getLast? with
    | none => exact h
    | some last =>
      obtain ⟨others, hjournals⟩ := List.getLast?_eq_some_iff.mp hlast
      have hl : LastJournal s.directory others last.1 last.2 := ⟨hjournals⟩
      refine ⟨h.directory, fun index hi => Option.some.inj hi, fun index hi => ?_⟩
      obtain rfl := Option.some.inj hi
      exact ⟨last.2, hl.journal_eq⟩

theorem whole_open (h : s.Whole) (config : DurableConfig) :
    (s.step (.open config true)).Whole := by
  show Whole { s with store := (s.store.open config true).2 }
  unfold DurableStore.open
  by_cases ho : s.store.isOpen = true
  · rw [if_pos ho]
    exact h
  · rw [if_neg ho]
    by_cases hd : config.directory = []
    · rw [if_pos hd]
      exact h
    · rw [if_neg hd, if_neg (by decide)]
      exact whole_unnamed h.directory rfl

/-- What one call keeps. -/
theorem whole_step (h : s.Whole) {call : StoreCall} (hc : call.succeeds) : (s.step call).Whole := by
  cases call with
  | «open» config created =>
    obtain rfl : created = true := hc
    exact whole_open h config
  | recover listed =>
    obtain rfl : listed = true := hc
    exact whole_recover h
  | commit state faults =>
    obtain rfl : faults = {} := hc
    exact whole_commit h state
  | checkpoint state faults =>
    obtain rfl : faults = {} := hc
    exact whole_checkpoint h state
  | close => exact ⟨h.directory, h.epoch, h.finds⟩
  | crash keep => exact hc.elim

theorem whole_run {coming : List StoreCall} (hc : ∀ call ∈ coming, call.succeeds) :
    (Foundation.run step {} coming).Whole := by
  have hempty : ({} : Session).Whole :=
    whole_unnamed
    ⟨fun _ hm => absurd hm List.not_mem_nil, fun _ hm => absurd hm List.not_mem_nil⟩ rfl
  refine @Foundation.run_invariant_of_calls Session StoreCall step Whole
    (fun _ call => call.succeeds) (fun _ _ h hc => whole_step h hc) {} hempty coming ?_
  exact fun call hm => hc call.2 (Foundation.input_of_mem_calls step hm)

end Session

/-! ### What a recovery finds behind a commit -/

namespace DurableStore

variable {store : DurableStore} {directory : Directory} {state : GovernorState}

/-- The journals that a recovery reads behind a commit: those of a higher index, or those that
its checkpoint leaves. -/
def readBehind (store : DurableStore) (directory : Directory) : JournalFiles :=
  if store.checkpointsNext then
    directory.journals.filter fun entry => entry.1 ≠ store.target ∧ entry.1 ≠ store.target + 1
  else directory.journals.filter fun entry => store.target < entry.1

/-- The states of a directory around the journal of a commit. -/
theorem written_state (hfinds : store.Finds directory) :
    (store.written directory state).state = lastState (lastState
      (lastState {} (snapshotStates directory.snapshot ++
        filesStates (directory.journals.filter fun entry => entry.1 < store.target)))
      (journalStates (store.current directory ++ commitRecord state)))
      (filesStates (directory.journals.filter fun entry => store.target < entry.1)) := by
  obtain ⟨file, hwritten, hcontent⟩ := @written_eq store directory state hfinds
  have hsnapshot : (store.written directory state).snapshot = directory.snapshot := by
    rw [hwritten]
    exact started_snapshot store directory
  have hbefore := @started_filter store directory (fun index => decide (index < store.target))
    (by simp)
  have hbehind := @started_filter store directory (fun index => decide (store.target < index))
    (by simp)
  have hjournals : (store.written directory state).journals =
      putJournal store.target file (store.started directory).journals := by
    rw [hwritten]
    rfl
  rw [Directory.state, hsnapshot, hjournals,
    filesStates_putJournal (store.started directory).ascending, hbefore, hbehind, hcontent,
    ← List.append_assoc, ← List.append_assoc, lastState_append, lastState_append]

/-- With room, the commit's state stands behind those of its journal. -/
theorem written_state_room (hwhole : directory.Whole) (hfinds : store.Finds directory)
    (hrecord : (encodeState state).length ≤ kMaxJournalRecordBytes) (hstate : state.Encodable)
    (hroom : store.hasRoom directory state) :
    (store.written directory state).state = lastState state
      (filesStates (directory.journals.filter fun entry => store.target < entry.1)) := by
  have hlen : (store.current directory).length ≤ kMaxFileBytes := by
    unfold hasRoom at hroom
    rw [List.length_append] at hroom
    omega
  have hintact := (current_whole hwhole hfinds).intact hlen
  have hstates := (journalStates_append hintact hrecord hroom (decodeState_encodeState hstate)).2
  rw [written_state hfinds, commitRecord, hstates, lastState_concat]

/-- Without room, nothing of the journal is read. -/
theorem written_state_full (hfinds : store.Finds directory)
    (hroom : ¬store.hasRoom directory state) :
    (store.written directory state).state = (directory.removeJournal store.target).state := by
  have hnone : journalStates (store.current directory ++ commitRecord state) = [] := by
    rw [journalStates, readJournal, if_pos (Nat.not_le.mp hroom)]
  have hothers : (directory.removeJournal store.target).journals =
      directory.journals.filter (fun entry => entry.1 < store.target) ++
        directory.journals.filter fun entry => store.target < entry.1 :=
    filter_ne_eq directory.ascending
  rw [written_state hfinds, hnone, Directory.state, hothers, filesStates_append]
  simp only [lastState_append]
  rfl

/-- The snapshot of a state that can be encoded is read back. -/
theorem snapshotStates_committed (config : DurableConfig)
    (hrecord : (encodeState state).length ≤ kMaxJournalRecordBytes) (hstate : state.Encodable) :
    snapshotStates (some (config.published (encodeState state))) = [state] := by
  have hlen : ¬(encodeState state).length > kMaxFileBytes :=
    Nat.not_lt.mpr (Nat.le_trans hrecord (by decide))
  unfold snapshotStates
  simp only [published_content]
  rw [if_neg hlen, decodeState_encodeState hstate]
  rfl

/-- The states of the journals that a checkpoint leaves. -/
theorem filesStates_retired {index : UInt64} (hjournal : store.journal = some index)
    (hindex : store.journalEpoch = index) :
    filesStates (store.retired directory state).journals =
      filesStates (directory.journals.filter fun entry =>
        entry.1 ≠ index ∧ entry.1 ≠ index + 1) := by
  have hjournals : (store.retired directory state).journals =
      (putJournal (index + 1) (store.config.published encodeJournalHeader)
        directory.journals).filter fun entry => entry.1 ≠ index := by
    unfold retired checkpointed
    rw [hjournal, hindex]
    rfl
  rw [hjournals, putJournal_eq directory.ascending, List.filter_append,
    List.filter_cons_of_pos (by simp), filesStates_append, filesStates_cons,
    published_content, intact_header.2, List.nil_append, ← filesStates_append,
    ← List.filter_append, ← filter_ne_eq directory.ascending, List.filter_filter]
  simp only [Bool.decide_and]

/-- Behind its checkpoint, the commit's state stands in the snapshot. -/
theorem retired_state (hepoch : store.AtEpoch) (hfinds : store.Finds directory) (count : UInt64)
    (hrecord : (encodeState state).length ≤ kMaxJournalRecordBytes) (hstate : state.Encodable) :
    (({ store.named with recordsSinceSnapshot := count } : DurableStore).retired
        (store.written directory state) state).state =
      lastState state (filesStates (directory.journals.filter fun entry =>
        entry.1 ≠ store.target ∧ entry.1 ≠ store.target + 1)) := by
  obtain ⟨file, hwritten, -⟩ := @written_eq store directory state hfinds
  have hjournal := named_journal store
  have hindex : store.named.journalEpoch = store.target :=
    named_atEpoch hepoch store.target hjournal
  have hfiles := @filesStates_retired { store.named with recordsSinceSnapshot := count }
    (store.written directory state) state _ hjournal hindex
  have hothers : (store.written directory state).journals.filter (fun entry =>
      entry.1 ≠ store.target ∧ entry.1 ≠ store.target + 1) =
        directory.journals.filter fun entry =>
          entry.1 ≠ store.target ∧ entry.1 ≠ store.target + 1 := by
    rw [hwritten]
    have hkept := @started_filter store directory
      (fun index => decide (index ≠ store.target ∧ index ≠ store.target + 1)) (by simp)
    exact (filter_putJournal (p := fun index =>
      decide (index ≠ store.target ∧ index ≠ store.target + 1)) (by simp)).trans hkept
  have hsnapshot : (({ store.named with recordsSinceSnapshot := count } : DurableStore).retired
      (store.written directory state) state).snapshot =
        some (store.named.config.published (encodeState state)) := by
    unfold retired checkpointed
    rw [hjournal]
    rfl
  rw [Directory.state, hsnapshot, snapshotStates_committed store.named.config hrecord hstate,
    hfiles, hothers, lastState_append]
  rfl

/-- A commit succeeds, and a recovery that follows it returns the state, without its live
authority. -/
def CommitReturns (store : DurableStore) (directory : Directory) (state : GovernorState) : Prop :=
  (store.commit directory state {}).1 = .ok () ∧ ∃ report,
    ((store.commit directory state {}).2.1.recover (store.commit directory state {}).2.2 true).1 =
        .ok report ∧ report.state = clearAuthority state

/-- What a commit has to find: a state that can be encoded, with an encoding that fits a record
of the journal, and no other state where a recovery looks behind it. A journal that a recovery
does not read any more, and that no checkpoint follows, takes its record for nothing. -/
structure FindsRoom (store : DurableStore) (directory : Directory) (state : GovernorState) :
    Prop where
  encodable : state.Encodable
  record : (encodeState state).length ≤ kMaxJournalRecordBytes
  newest : store.checkpointsNext ∨ store.hasRoom directory state →
    ∀ held ∈ (filesStates (store.readBehind directory)).getLast?,
      clearAuthority held = clearAuthority state
  full : ¬(store.checkpointsNext ∨ store.hasRoom directory state) →
    clearAuthority (directory.removeJournal store.target).state = clearAuthority state

theorem clearAuthority_lastState {states : List GovernorState} :
    clearAuthority (lastState state states) = clearAuthority state ↔
      ∀ held ∈ states.getLast?, clearAuthority held = clearAuthority state := by
  rw [lastState_eq_getLast]
  cases states.getLast? with
  | none => simp
  | some held => simp

/-- The clearing of live authority changes nothing of what an encoding asks for. -/
theorem encodable_clearAuthority : (clearAuthority state).Encodable ↔ state.Encodable := by
  have hrecord : ∀ intervention : Intervention,
      (if intervention.live then { intervention with state := .revalidating }
        else intervention).SameBounds intervention := by
    intro intervention
    split_ifs <;> exact ⟨rfl, rfl, rfl, rfl⟩
  constructor
  · intro h
    refine ⟨h.next, h.history, (List.length_map _).symm.trans_le h.table, h.windows, fun i hm => ?_⟩
    have hcleared := h.records _ (List.mem_map_of_mem hm)
    have hsame := hrecord i
    exact Intervention.SameBounds.encodable
      ⟨hsame.id.symm, hsame.intent.symm, hsame.applied.symm, hsame.detail.symm⟩ hcleared
  · intro h
    refine ⟨h.next, h.history, (List.length_map _).trans_le h.table, h.windows, fun i hm => ?_⟩
    obtain ⟨source, hsource, rfl⟩ := List.mem_map.mp hm
    exact (hrecord source).encodable (h.records source hsource)

/-- Where a commit leaves its directory. -/
theorem commit_state (hopen : store.isOpen = true) (hwhole : directory.Whole)
    (hepoch : store.AtEpoch) (hfinds : store.Finds directory) (hstate : state.Encodable)
    (hbound : (encodeState state).length ≤ store.config.maxStateBytes)
    (hrecord : (encodeState state).length ≤ kMaxJournalRecordBytes) :
    ∃ next left, store.commit directory state {} = (.ok (), next, left) ∧ next.isOpen = true ∧
      left.state = if store.checkpointsNext ∨ store.hasRoom directory state then
          lastState state (filesStates (store.readBehind directory))
        else (directory.removeJournal store.target).state := by
  have hnamed : store.named.isOpen = true := (named_isOpen store).trans hopen
  rw [commit_succeeds hopen hbound hrecord]
  unfold readBehind
  by_cases hc : store.checkpointsNext
  · have hconfig : (encodeState state).length ≤ store.named.config.maxStateBytes := by
      rw [named_config]
      exact hbound
    rw [if_pos hc, if_pos hc, if_pos (Or.inl hc),
      @checkpoint_succeeds { store.named with
        recordsSinceSnapshot := store.named.recordsSinceSnapshot + 1 } _ state hnamed
          (named_atEpoch hepoch) hconfig]
    exact ⟨_, _, rfl, hnamed, retired_state hepoch hfinds _ hrecord hstate⟩
  · rw [if_neg hc, if_neg hc]
    refine ⟨_, _, rfl, hnamed, ?_⟩
    by_cases hroom : store.hasRoom directory state
    · rw [if_pos (Or.inr hroom)]
      exact written_state_room hwhole hfinds hrecord hstate hroom
    · rw [if_neg (not_or.mpr ⟨hc, hroom⟩)]
      exact written_state_full hfinds hroom

theorem commitReturns_iff (hopen : store.isOpen = true) (hwhole : directory.Whole)
    (hepoch : store.AtEpoch) (hfinds : store.Finds directory) (hstate : state.Encodable)
    (hbound : (encodeState state).length ≤ store.config.maxStateBytes) :
    store.CommitReturns directory state ↔ store.FindsRoom directory state := by
  by_cases hrecord : (encodeState state).length ≤ kMaxJournalRecordBytes
  · obtain ⟨next, left, hcommit, hnext, hleft⟩ :=
      commit_state hopen hwhole hepoch hfinds hstate hbound hrecord
    have hreport := recover_listed hnext left
    have hreturns : store.CommitReturns directory state ↔
        clearAuthority left.state = clearAuthority state := by
      unfold CommitReturns
      rw [hcommit, ← recover_state hreport]
      simp [hreport]
    rw [hreturns, hleft]
    by_cases hread : store.checkpointsNext ∨ store.hasRoom directory state
    · rw [if_pos hread, clearAuthority_lastState]
      exact ⟨fun h => ⟨hstate, hrecord, fun _ => h, fun hfull => absurd hread hfull⟩,
        fun h => h.newest hread⟩
    · rw [if_neg hread]
      exact ⟨fun h => ⟨hstate, hrecord, fun hroom => absurd hroom hread, fun _ => h⟩,
        fun h => h.full hread⟩
  · exact iff_of_false (fun h => commit_oversized (Nat.not_le.mp hrecord) {} h.1)
      fun h => hrecord h.record

end DurableStore

namespace Session

variable {s : Session} {state : GovernorState}

/-- A state that a recovery returns can be encoded. -/
theorem encodable_of_returns (h : s.Whole) (hreturns : s.store.CommitReturns s.directory state) :
    state.Encodable := by
  obtain ⟨-, report, hreport, hstate⟩ := hreturns
  have hleft : (s.store.commit s.directory state {}).2.2.state.Encodable :=
    (whole_commit h state).directory.state
  rw [recover_state hreport] at hstate
  rw [← DurableStore.encodable_clearAuthority, ← hstate, DurableStore.encodable_clearAuthority]
  exact hleft

/-- In every run whose file operations succeed, a commit of a state that the configuration allows
succeeds, and is what a recovery returns, exactly when it finds room for the state. -/
theorem run_commit_returns_iff {coming : List StoreCall} (hc : ∀ call ∈ coming, call.succeeds)
    (hs : s = Foundation.run step {} coming) (hopen : s.store.isOpen = true)
    (hbound : (encodeState state).length ≤ s.store.config.maxStateBytes) :
    s.store.CommitReturns s.directory state ↔ s.store.FindsRoom s.directory state := by
  have h : s.Whole := hs ▸ whole_run hc
  by_cases hstate : state.Encodable
  · exact DurableStore.commitReturns_iff hopen h.directory h.epoch h.finds hstate hbound
  · exact iff_of_false (fun hreturns => hstate (encodable_of_returns h hreturns))
      fun hroom => hstate hroom.encodable

/-- A fresh store takes the commit of a small state. -/
theorem run_commit_returns_fresh :
    let s := Foundation.run step {} [sampleOpen, .recover true]
    s.store.CommitReturns s.directory (History.sampleState 1) := by
  have hcalls : ∀ call ∈ [sampleOpen, .recover true], call.succeeds := by
    simp [sampleOpen, StoreCall.succeeds]
  refine (run_commit_returns_iff hcalls rfl rfl (by decide +kernel)).mpr
    ⟨by decide +kernel, by decide +kernel, fun _ held hm => (by cases hm), fun hfull => ?_⟩
  exact absurd (Or.inr (by decide +kernel)) hfull

/-! ### A state that no commit takes -/

theorem penalized_length_le (intent : MitigationIntent) :
    24 * intent.penalizedSenders.length ≤ (encodeIntent intent).length := by
  have hsenders : ∀ identity ∈ intent.penalizedSenders, 24 ≤
      (writeU64 identity.sender.value ++ (writeU64 identity.incarnation.value ++
        writeU64 identity.flow.value)).length := fun identity _ => by simp
  refine (le_flatMap_length hsenders).trans (List.Sublist.length_le ?_)
  unfold encodeIntent
  apply List.sublist_flatten_of_mem
  simp

/-- A retired record that penalized as many senders as an intent can name. -/
def crowdedRecord (n : ℕ) : Intervention :=
  { id := ⟨UInt64.ofNat (n + 1)⟩, state := .retired
    intent := { bounded := true, penalizedSenders := List.replicate kMaxPenalizedSenders {} } }

def crowdedState : GovernorState :=
  { interventions := (List.range 12).map crowdedRecord, nextInterventionGeneration := ⟨13⟩ }

/-- A run of a governor that restores it. -/
def crowdedGovernor : Governor :=
  Foundation.run Governor.step (Governor.create Governor.sampleConfig) [.restoreState crowdedState]

theorem crowdedState_encodable : crowdedState.Encodable := by
  refine ⟨by decide, by decide, by simp [crowdedState, kMaxInterventions], ?_, ?_⟩
  · intro record hm
    cases hm
  · intro intervention hm
    obtain ⟨n, hn, rfl⟩ := List.mem_map.mp hm
    have hid : ∀ n ∈ List.range 12, UInt64.ofNat (n + 1) ≠ 0 := by decide
    refine ⟨hid n hn, rfl, ⟨rfl, rfl, rfl, ?_, Nat.zero_le _⟩, rfl, Nat.zero_le _⟩
    exact (List.length_replicate).le

/-- The records are dead: the restore leaves them as they are. -/
theorem crowdedGovernor_interventions :
    crowdedGovernor.state.interventions = (List.range 12).map crowdedRecord := by
  have hvalid : crowdedState.validate = .ok () := validate_of_encodable crowdedState_encodable
  show ((Governor.create Governor.sampleConfig).restoreState crowdedState).2.state.interventions = _
  unfold Governor.restoreState
  rw [hvalid]
  have hdead : ∀ n, ¬(crowdedRecord n).live := fun n =>
    (by decide : ¬InterventionState.retired.live)
  exact List.map_map.trans
    (List.map_congr_left fun n _ => Governor.restoreRecord_dead _ (hdead n))

theorem crowded_encodable : crowdedGovernor.state.Encodable := by
  have hpolicy : Governor.sampleConfig.policy.validate = .ok () := by decide +kernel
  have hrestores : Governor.restoresEncodable (.restoreState crowdedState) :=
    fun _ => crowdedState_encodable
  exact (Governor.reached_step (Governor.reached_create hpolicy) hrestores id).state

theorem crowded_length : kMaxJournalRecordBytes < (encodeState crowdedGovernor.state).length ∧
    (encodeState crowdedGovernor.state).length ≤ 4 * 1024 * 1024 := by
  have htable : crowdedGovernor.state.interventions.length = 12 := by
    rw [crowdedGovernor_interventions]
    rfl
  constructor
  · have hrecords : ∀ intervention ∈ crowdedGovernor.state.interventions,
        24 * kMaxPenalizedSenders ≤ (encodeIntervention intervention).length := by
      intro intervention hm
      rw [crowdedGovernor_interventions] at hm
      obtain ⟨n, -, rfl⟩ := List.mem_map.mp hm
      have hsenders : (crowdedRecord n).intent.penalizedSenders.length = kMaxPenalizedSenders :=
        List.length_replicate
      rw [← hsenders]
      exact (penalized_length_le _).trans (encodeIntent_length_le _)
    have hpayload := le_encodePayload_length hrecords
    rw [htable] at hpayload
    rw [encodeState_length]
    simp only [kMaxPenalizedSenders, kMaxJournalRecordBytes] at *
    omega
  · have hpayload := encodePayload_length_lists crowded_encodable
    have hhistory := crowded_encodable.history
    rw [htable] at hpayload
    rw [encodeState_length]
    simp only [kMaxWindowHistory] at hhistory
    omega

/-- A governor reaches a state within the bound of the configuration which a checkpoint of a
fresh store takes, and which no store ever commits. -/
theorem crowded_state_uncommittable :
    let s := Foundation.run step {} [sampleOpen, .recover true]
    let state := crowdedGovernor.state
    s.store.isOpen = true ∧ (encodeState state).length ≤ s.store.config.maxStateBytes ∧
      (s.store.checkpoint s.directory state {}).1 = .ok () ∧
      ¬s.store.CommitReturns s.directory state ∧
      ∀ (store : DurableStore) (directory : Directory) (faults : CommitFaults),
        (store.commit directory state faults).1 ≠ .ok () := by
  intro s state
  have hrefused : ∀ (store : DurableStore) (directory : Directory) (faults : CommitFaults),
      (store.commit directory state faults).1 ≠ .ok () := fun store directory faults =>
    DurableStore.commit_oversized crowded_length.1 faults
  have hopen : s.store.isOpen = true := rfl
  have hconfig : s.store.config.maxStateBytes = 4 * 1024 * 1024 := rfl
  have hepoch : s.store.AtEpoch := fun index hi => by cases hi
  have hbound : (encodeState state).length ≤ s.store.config.maxStateBytes :=
    crowded_length.2.trans hconfig.ge
  clear_value s
  refine ⟨hopen, hbound, ?_, fun h => hrefused _ _ _ h.1, hrefused⟩
  rw [DurableStore.checkpoint_succeeds hopen hepoch hbound]

end Session

end IncastGovernor
