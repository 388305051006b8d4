import IncastGovernor.Durable.Store

/-! The state a directory holds, and what a crash leaves of it. A recovery reports the
state of the last record of the last journal that has one, or else the snapshot's. An
append to a journal that ends with a whole record adds its state; behind a torn record
it would add nothing. -/

namespace IncastGovernor

/-! ### The state a directory holds -/

def snapshotStates (snapshot : Option DurableFile) : List GovernorState :=
  match snapshot with
  | none => []
  | some file =>
    if file.content.length > kMaxFileBytes then [] else (decodeState file.content).toOption.toList

def filesStates (journals : JournalFiles) : List GovernorState :=
  journals.flatMap fun entry => journalStates entry.2.content

@[simp] theorem filesStates_nil : filesStates [] = [] := rfl

@[simp] theorem filesStates_cons (entry : UInt64 × DurableFile) (rest : JournalFiles) :
    filesStates (entry :: rest) = journalStates entry.2.content ++ filesStates rest :=
  List.flatMap_cons

@[simp] theorem filesStates_append (xs ys : JournalFiles) :
    filesStates (xs ++ ys) = filesStates xs ++ filesStates ys := List.flatMap_append

/-- Each state replaces the one before. -/
def lastState (base : GovernorState) (states : List GovernorState) : GovernorState :=
  states.foldl (fun _ state => state) base

@[simp] theorem lastState_append (base : GovernorState) (xs ys : List GovernorState) :
    lastState base (xs ++ ys) = lastState (lastState base xs) ys := List.foldl_append

@[simp] theorem lastState_concat (base : GovernorState) (xs : List GovernorState)
    (state : GovernorState) : lastState base (xs ++ [state]) = state := by
  rw [lastState_append]
  rfl

/-- The state a recovery finds: the snapshot's, unless a journal has one. -/
def Directory.state (directory : Directory) : GovernorState :=
  lastState {} (snapshotStates directory.snapshot ++ filesStates directory.journals)

namespace RecoveryReport

theorem applySnapshot_state (snapshot : Option DurableFile) :
    (({} : RecoveryReport).applySnapshot snapshot).state = lastState {} (snapshotStates snapshot) := by
  unfold applySnapshot snapshotStates
  cases snapshot with
  | none => rfl
  | some file =>
    simp only
    split_ifs
    · rfl
    · cases decodeState file.content <;> rfl

theorem applyRecord_state (report : RecoveryReport) (record : JournalRecordType × Text) :
    (report.applyRecord record).state = (committedState record).getD report.state := by
  unfold applyRecord committedState
  by_cases hc : record.1 = .stateCommit
  · rw [if_pos hc, if_pos hc]
    cases decodeState record.2 <;> rfl
  · rw [if_neg hc, if_neg hc]
    rfl

theorem foldl_applyRecord_state (records : List (JournalRecordType × Text))
    (report : RecoveryReport) :
    (records.foldl applyRecord report).state =
      lastState report.state (records.filterMap committedState) := by
  induction records generalizing report with
  | nil => rfl
  | cons record rest ih =>
    rw [List.foldl_cons, ih, applyRecord_state]
    cases hc : committedState record with
    | none => rw [List.filterMap_cons_none hc]; rfl
    | some state => rw [List.filterMap_cons_some hc]; rfl

theorem applyTail_state (report : RecoveryReport) (error : Error) (tail : Text) :
    (report.applyTail error tail).state = report.state := by
  unfold applyTail
  simp only
  split_ifs <;> rfl

theorem applyJournal_state (report : RecoveryReport) (entry : UInt64 × DurableFile) :
    (report.applyJournal entry).state =
      lastState report.state (journalStates entry.2.content) := by
  unfold applyJournal journalStates
  cases readJournal entry.2.content with
  | error fault => cases fault <;> rfl
  | ok replay =>
    obtain ⟨records, tail⟩ := replay
    cases tail with
    | none => exact foldl_applyRecord_state records report
    | some stop =>
      show ((records.foldl applyRecord report).applyTail stop.1 stop.2).state = _
      rw [applyTail_state]
      exact foldl_applyRecord_state records report

theorem foldl_applyJournal_state (journals : JournalFiles) (report : RecoveryReport) :
    (journals.foldl applyJournal report).state = lastState report.state (filesStates journals) := by
  induction journals generalizing report with
  | nil => rfl
  | cons entry rest ih =>
    rw [List.foldl_cons, ih, applyJournal_state, filesStates_cons, lastState_append]

end RecoveryReport

/-- The report on a directory before its end: the snapshot and every journal. -/
def Directory.replayed (directory : Directory) : RecoveryReport :=
  directory.journals.foldl RecoveryReport.applyJournal
    { ({} : RecoveryReport).applySnapshot directory.snapshot with
      journalPresent := !directory.journals.isEmpty }

/-- The store after a recovery: it goes on with the last journal, if there is one. -/
def DurableStore.resumed (store : DurableStore) (directory : Directory) : DurableStore :=
  match directory.journals.getLast? with
  | none => store
  | some last => { store with journal := some last.1, journalEpoch := last.1 }

/-- The two ways through `recover`. -/
inductive RecoveredBy (store : DurableStore) (directory : Directory) :
    Outcome RecoveryReport × DurableStore → Prop
  | refused (error : Error) : RecoveredBy store directory (.error error, store)
  | reported (isOpen : store.isOpen = true) :
      RecoveredBy store directory (.ok directory.replayed.finish, store.resumed directory)

theorem recover_by (store : DurableStore) (directory : Directory) (listed : Bool) :
    RecoveredBy store directory (store.recover directory listed) := by
  unfold DurableStore.recover
  split_ifs with ho hl
  · exact .reported ho
  · exact .refused _
  · exact .refused _

/-- A recovery reports the state the directory holds, without its live authority. -/
theorem recover_state {store : DurableStore} {directory : Directory} {listed : Bool}
    {report : RecoveryReport} (h : (store.recover directory listed).1 = .ok report) :
    report.state = clearAuthority directory.state := by
  have hby := recover_by store directory listed
  generalize store.recover directory listed = result at hby h
  cases hby with
  | refused => cases h
  | reported =>
    obtain rfl := Except.ok.inj h
    show clearAuthority directory.replayed.state = _
    rw [Directory.replayed, RecoveryReport.foldl_applyJournal_state, Directory.state,
      lastState_append, ← RecoveryReport.applySnapshot_state]

/-- A recovery of an open store that lists its directory reports. -/
theorem recover_listed {store : DurableStore} (hopen : store.isOpen = true) (directory : Directory) :
    (store.recover directory true).1 = .ok directory.replayed.finish := by
  unfold DurableStore.recover
  rw [if_neg (not_not.mpr hopen), if_neg (by decide)]
  rfl

/-! ### What a crash leaves -/

def crashFiles (keep : Option UInt64 → ℕ) (journals : JournalFiles) : JournalFiles :=
  journals.map fun entry => (entry.1, entry.2.crash (keep (some entry.1)))

theorem Directory.crash_state (directory : Directory) (keep : Option UInt64 → ℕ) :
    (directory.crash keep).state =
      lastState {} (snapshotStates (directory.snapshot.map fun file => file.crash (keep none)) ++
        filesStates (crashFiles keep directory.journals)) := rfl

/-- The directory holds one of some states, however a crash leaves it. -/
def Directory.holds (directory : Directory) (states : List GovernorState) : Prop :=
  ∀ keep, (directory.crash keep).state ∈ states

theorem Directory.holds.mono {directory : Directory} {xs ys : List GovernorState}
    (h : directory.holds xs) (hsub : xs ⊆ ys) : directory.holds ys := fun keep => hsub (h keep)

theorem Directory.crash_crash_state (directory : Directory) (keep again : Option UInt64 → ℕ) :
    ((directory.crash keep).crash again).state = (directory.crash keep).state := by
  have hsnapshot : (directory.crash keep).snapshot.map (fun file => file.crash (again none)) =
      (directory.crash keep).snapshot := by
    cases hs : directory.snapshot <;> simp [Directory.crash, hs]
  have hjournals : crashFiles again (directory.crash keep).journals =
      (directory.crash keep).journals := by
    simp [crashFiles, Directory.crash]
  rw [Directory.crash_state, hsnapshot, hjournals]
  rfl

/-- A directory that no crash met is one of those a crash leaves. -/
theorem Directory.exists_crash_state (directory : Directory) :
    ∃ keep, (directory.crash keep).state = directory.state := by
  obtain ⟨bound, hbound⟩ : ∃ bound, ∀ entry ∈ directory.journals,
      entry.2.cached.length ≤ bound := by
    refine ⟨(directory.journals.map fun entry => entry.2.cached.length).sum, fun entry hm => ?_⟩
    exact List.single_le_sum (fun _ _ => Nat.zero_le _) _ (List.mem_map_of_mem hm)
  have hcrash : ∀ (file : DurableFile) (n : ℕ), file.cached.length ≤ n →
      (file.crash n).content = file.content := by
    intro file n hn
    rw [DurableFile.crash_content, List.take_of_length_le hn, DurableFile.content]
  let keep : Option UInt64 → ℕ := fun target =>
    target.elim ((directory.snapshot.map fun file => file.cached.length).getD 0) fun _ => bound
  refine ⟨keep, ?_⟩
  have hsnapshot : snapshotStates (directory.snapshot.map fun file => file.crash (keep none)) =
      snapshotStates directory.snapshot := by
    cases hs : directory.snapshot with
    | none => rfl
    | some file =>
      have hkeep : keep none = file.cached.length := by simp only [keep, hs]; rfl
      simp only [Option.map_some, snapshotStates, hcrash file (keep none) hkeep.ge]
  have hjournals : filesStates (crashFiles keep directory.journals) =
      filesStates directory.journals := by
    unfold filesStates crashFiles
    rw [List.flatMap_map]
    refine List.flatMap_congr fun entry hm => ?_
    exact congrArg journalStates (hcrash entry.2 bound (hbound entry hm))
  rw [Directory.crash_state, hsnapshot, hjournals, Directory.state]

/-! ### The last journal -/

theorem putJournal_of_lt {index : UInt64} {file : DurableFile} {journals : JournalFiles}
    (h : ∀ entry ∈ journals, entry.1 < index) :
    putJournal index file journals = journals ++ [(index, file)] := by
  induction journals with
  | nil => rfl
  | cons first rest ih =>
    rw [putJournal, if_pos (h first List.mem_cons_self),
      ih fun entry hm => h entry (List.mem_cons_of_mem first hm), List.cons_append]

theorem putJournal_replace {index : UInt64} {file old : DurableFile}
    {journals after : JournalFiles} (h : ∀ entry ∈ journals, entry.1 < index) :
    putJournal index file (journals ++ (index, old) :: after) =
      journals ++ (index, file) :: after := by
  induction journals with
  | nil =>
    show putJournal index file ((index, old) :: after) = _
    rw [putJournal, if_neg (UInt64.lt_irrefl index), if_pos rfl]
    rfl
  | cons first rest ih =>
    rw [List.cons_append, putJournal, if_pos (h first List.mem_cons_self),
      ih fun entry hm => h entry (List.mem_cons_of_mem first hm), List.cons_append]

/-- The last journal of a directory, behind the others. -/
structure LastJournal (directory : Directory) (others : JournalFiles) (index : UInt64)
    (file : DurableFile) : Prop where
  journals : directory.journals = others ++ [(index, file)]

namespace LastJournal

variable {directory directory' : Directory} {others : JournalFiles} {index : UInt64}
  {file file' : DurableFile}

theorem others_lt (h : LastJournal directory others index file) :
    ∀ entry ∈ others, entry.1 < index := by
  have hasc := directory.ascending
  rw [h.journals, List.pairwise_append] at hasc
  exact fun entry hm => hasc.2.2 entry hm _ (List.mem_singleton.mpr rfl)

theorem journal_eq (h : LastJournal directory others index file) :
    directory.journal index = some file := by
  have hnone : others.find? (fun entry => entry.1 = index) = none := by
    rw [List.find?_eq_none]
    intro entry hm heq
    have hlt := h.others_lt entry hm
    rw [of_decide_eq_true heq] at hlt
    exact UInt64.lt_irrefl index hlt
  rw [Directory.journal, h.journals, List.find?_append, hnone]
  simp

theorem set (h : LastJournal directory others index file) :
    LastJournal (directory.setJournal index file') others index file' := by
  constructor
  show putJournal index file' directory.journals = _
  rw [h.journals, putJournal_replace h.others_lt]

/-- What a crash leaves of the other files, and then of the last journal. -/
theorem crash_state (h : LastJournal directory others index file) (keep : Option UInt64 → ℕ) :
    (directory.crash keep).state =
      lastState
        (lastState {} (snapshotStates (directory.snapshot.map fun f => f.crash (keep none)) ++
          filesStates (crashFiles keep others)))
        (journalStates (file.crash (keep (some index))).content) := by
  rw [Directory.crash_state, h.journals, crashFiles, List.map_append, filesStates_append,
    ← List.append_assoc, lastState_append]
  simp [crashFiles, lastState]

/-- The last journal may have kept all its bytes, whatever the other files kept. -/
theorem exists_crash_state (h : LastJournal directory others index file)
    (keep : Option UInt64 → ℕ) :
    ∃ keep', (directory.crash keep').state =
      lastState
        (lastState {} (snapshotStates (directory.snapshot.map fun f => f.crash (keep none)) ++
          filesStates (crashFiles keep others)))
        (journalStates file.content) := by
  let keep' : Option UInt64 → ℕ := fun k => if k = some index then file.cached.length else keep k
  have hothers : crashFiles keep' others = crashFiles keep others := by
    refine List.map_congr_left fun entry hm => ?_
    have hne : some entry.1 ≠ some index := by
      intro heq
      have hlt := h.others_lt entry hm
      rw [Option.some.inj heq] at hlt
      exact UInt64.lt_irrefl index hlt
    simp only [keep', if_neg hne]
  have hfile : (file.crash (keep' (some index))).content = file.content := by
    simp only [keep', if_true]
    rw [DurableFile.crash_content, List.take_length, DurableFile.content]
  refine ⟨keep', ?_⟩
  rw [h.crash_state, hothers, hfile]
  simp only [keep', reduceCtorEq, if_false]

end LastJournal

/-! ### Appends -/

section Append

variable {directory directory' : Directory} {others : JournalFiles} {index : UInt64}
  {file : DurableFile} {state : GovernorState} {states : List GovernorState}

/-- A commit that a journal takes: the journal ends with a whole record, has room for the
commit's, and the state can be decoded from its encoding. -/
structure Takes (content : Text) (state : GovernorState) : Prop where
  intact : intact content
  payload : (encodeState state).length ≤ kMaxJournalRecordBytes
  room : (content ++ encodeJournalRecord .stateCommit (encodeState state)).length ≤ kMaxFileBytes
  decodes : decodeState (encodeState state) = .ok state

/-- However much of its record is written, an append adds one state to those a crash may
leave. -/
theorem holds_write (h : LastJournal directory others index file) (ht : Takes file.content state)
    (hs : directory'.snapshot = directory.snapshot) {n : ℕ}
    (h' : LastJournal directory' others index
      (file.write ((encodeJournalRecord .stateCommit (encodeState state)).take n)))
    (hh : directory.holds states) : directory'.holds (state :: states) := by
  intro keep
  rw [h'.crash_state, hs]
  rcases file.crash_write ((encodeJournalRecord .stateCommit (encodeState state)).take n)
    (keep (some index)) with hc | ⟨k, hc⟩
  · rw [hc, ← h.crash_state]
    exact List.mem_cons_of_mem state (hh keep)
  · rw [hc, List.take_take]
    rcases journalStates_append_take ht.intact ht.payload ht.room ht.decodes (min k n) with hr | hr
    · obtain ⟨keep', hk⟩ := h.exists_crash_state keep
      rw [hr, ← hk]
      exact List.mem_cons_of_mem state (hh keep')
    · rw [hr, lastState_concat]
      exact List.mem_cons_self

/-- A synced append settles what a crash leaves. -/
theorem holds_sync (ht : Takes file.content state)
    (h' : LastJournal directory' others index
      (file.write (encodeJournalRecord .stateCommit (encodeState state))).sync) :
    directory'.holds [state] := by
  intro keep
  rw [h'.crash_state, DurableFile.crash_sync_content, DurableFile.write_content,
    (journalStates_append ht.intact ht.payload ht.room ht.decodes).2, lastState_concat]
  exact List.mem_singleton.mpr rfl

end Append

end IncastGovernor
