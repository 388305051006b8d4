import IncastGovernor.Durable.Steps

/-! What a commit leaves. A commit that its journal takes is settled once it is synced:
every crash leaves its state. The checkpoint behind it keeps that, if no older journal
stands beside the current one. -/

namespace IncastGovernor

namespace DurableStore

variable {store : DurableStore} {directory : Directory} {state : GovernorState}
  {faults : CommitFaults}

/-! ### The condition -/

/-- What a commit that is not refused has to find: synced commits, indices left, a state
that its encoding keeps, a journal that ends with a whole record and has room, and, if it
checkpoints, no older journal beside it. -/
structure CommitsSafely (store : DurableStore) (directory : Directory) (state : GovernorState) :
    Prop where
  fsync : store.config.fsyncOnCommit = true
  indices : store.journalEpoch.toNat + 2 < 2 ^ 64
  decodes : decodeState (encodeState state) = .ok state
  journal : ∀ index ∈ store.journal, ∀ file ∈ directory.journal index, intact file.content ∧
    (file.content ++ commitRecord state).length ≤ kMaxFileBytes
  alone : store.checkpoints → directory.journals.length ≤ 1

instance (store : DurableStore) (directory : Directory) (state : GovernorState) :
    Decidable (store.CommitsSafely directory state) :=
  -- the indices are finitely many: an enumeration of them must not be found here
  have : Decidable (∀ index ∈ store.journal, ∀ file ∈ directory.journal index,
      intact file.content ∧ (file.content ++ commitRecord state).length ≤ kMaxFileBytes) :=
    Option.decidableForallMem store.journal
  decidable_of_iff
    (store.config.fsyncOnCommit = true ∧ store.journalEpoch.toNat + 2 < 2 ^ 64 ∧
      decodeState (encodeState state) = .ok state ∧
      (∀ index ∈ store.journal, ∀ file ∈ directory.journal index, intact file.content ∧
        (file.content ++ commitRecord state).length ≤ kMaxFileBytes) ∧
      (store.checkpoints → directory.journals.length ≤ 1))
    ⟨fun ⟨a, b, c, d, e⟩ => ⟨a, b, c, d, e⟩, fun ⟨a, b, c, d, e⟩ => ⟨a, b, c, d, e⟩⟩

theorem CommitsSafely.takes (hs : store.CommitsSafely directory state)
    (hb : store.withinBounds state) : store.TakesCommit directory state :=
  ⟨hb, hs.indices, hs.journal⟩

theorem CommitsSafely.others_nil (hs : store.CommitsSafely directory state)
    (h : Serves store directory) (hc : store.checkpoints ∨ store.journal = none) :
    store.others directory = [] := by
  cases hj : store.journal with
  | none =>
    unfold others
    rw [h.unnamed hj]
    rfl
  | some index =>
    obtain ⟨others, file, hl⟩ := h.named index hj
    have hlen := hs.alone (hc.resolve_right fun hnone => by rw [hj] at hnone; cases hnone)
    rw [hl.journals, List.length_append, List.length_singleton] at hlen
    rw [others_eq hl hj]
    exact List.length_eq_zero_iff.mp (by omega)

/-! ### Appends -/

theorem Ready.takes {index : UInt64} {named : DurableStore} {started : Directory}
    {others : JournalFiles} {file : DurableFile}
    (hr : Ready store directory state index named started others file)
    (hs : store.CommitsSafely directory state) (hb : store.withinBounds state) :
    Takes file.content state := ⟨hr.intact, hb.2, hr.room, hs.decodes⟩

theorem Ready.holds {index : UInt64} {named : DurableStore} {started : Directory}
    {others : JournalFiles} {file : DurableFile}
    (hr : Ready store directory state index named started others file)
    (hf : store.config.fsyncOnCommit = true) {states : List GovernorState}
    (hh : directory.holds states) : started.holds states := by
  intro keep
  rw [hr.crash hf keep]
  exact hh keep

/-- A settled directory: every crash leaves the state, in its last journal. -/
structure Settled (store : DurableStore) (directory : Directory) (state : GovernorState)
    (index : UInt64) (others : JournalFiles) (file : DurableFile) : Prop where
  serves : Serves store directory
  journal : store.journal = some index
  last : LastJournal directory others index file
  states : ∀ keep, ∃ states, journalStates (file.crash keep).content = states ++ [state]

theorem Settled.holds {others : JournalFiles} {index : UInt64} {file : DurableFile}
    (h : Settled store directory state index others file) : directory.holds [state] := by
  intro keep
  obtain ⟨states, hstates⟩ := h.states (keep (some index))
  rw [h.last.crash_state, hstates, lastState_concat]
  exact List.mem_singleton.mpr rfl

/-- A synced append of a safe commit fails and may have left the state, or settles it. -/
theorem append_spec (h : Serves store directory) (hb : store.withinBounds state)
    (hs : CommitsSafely store directory state) :
    (∃ error failed left,
        store.append directory .stateCommit (encodeState state) faults = (.error error, failed, left) ∧
          Serves failed left ∧
            ∀ states, directory.holds states → left.holds (state :: states)) ∨
      ∃ appended written index others file,
        store.append directory .stateCommit (encodeState state) faults = (.ok (), appended, written) ∧
          Settled appended written state index others file ∧ appended.config = store.config ∧
            appended.journalEpoch.toNat + 1 < 2 ^ 64 ∧
              (appended.recordsSinceSnapshot ≥ appended.config.maxJournalRecordsBeforeSnapshot →
                others = []) := by
  have hsynced : ∀ file : DurableFile, store.config.appended file (commitRecord state) =
      (file.write (commitRecord state)).sync := fun file => if_pos hs.fsync
  have hby := @append_by store directory state faults h (hs.takes hb)
  generalize store.append directory .stateCommit (encodeState state) faults = result at hby ⊢
  cases hby with
  | unready error skipped hskipped =>
    exact Or.inl ⟨error, skipped, directory, rfl, hskipped,
      fun states hh => hh.mono (List.subset_cons_self _ _)⟩
  | torn error index named started others file hr n =>
    have hwritten := @LastJournal.set started others index file
      (file.write ((commitRecord state).take n)) hr.last
    exact Or.inl ⟨error, named, _, rfl,
      serves_write hr.serves hr.last hr.journal _ named.recordsSinceSnapshot,
      fun states hh => holds_write hr.last (hr.takes hs hb) rfl hwritten (hr.holds hs.fsync hh)⟩
  | unclosed error index named started others file hr =>
    rw [hsynced]
    have hwritten := @LastJournal.set started others index file
      (file.write (commitRecord state)).sync hr.last
    refine Or.inl ⟨error, named, _, rfl,
      serves_write hr.serves hr.last hr.journal _ named.recordsSinceSnapshot, fun states _ => ?_⟩
    refine (holds_sync (hr.takes hs hb) hwritten).mono ?_
    exact List.cons_subset_cons state (List.nil_subset states)
  | acknowledged index named started others file hr =>
    rw [hsynced]
    have hwritten := @LastJournal.set started others index file
      (file.write (commitRecord state)).sync hr.last
    have ht := hr.takes hs hb
    refine Or.inr ⟨_, _, index, others, _, rfl, ⟨serves_write hr.serves hr.last hr.journal _ _,
      hr.journal, hwritten, fun keep => ⟨journalStates file.content, ?_⟩⟩, hr.config, hr.indices,
      fun hc => ?_⟩
    · rw [DurableFile.crash_sync_content, DurableFile.write_content]
      exact (journalStates_append ht.intact ht.payload ht.room ht.decodes).2
    · rw [hr.others_eq]
      exact hs.others_nil h (hr.checkpoints hc)

/-! ### Checkpoints -/

theorem settled_snapshot {others : JournalFiles} {index : UInt64} {file : DurableFile}
    (h : Settled store directory state index others file) (snapshot : Option DurableFile) :
    Settled store { directory with snapshot } state index others file :=
  ⟨serves_snapshot h.serves snapshot, h.journal, ⟨h.last.journals⟩, h.states⟩

/-- A published snapshot is read back, whatever a crash leaves of it. -/
theorem snapshotStates_published (hb : store.withinBounds state)
    (hd : decodeState (encodeState state) = .ok state) {snapshot : DurableFile}
    (hp : Published store.config (encodeState state) snapshot)
    (hf : store.config.fsyncOnCommit = true) (keep : ℕ) :
    snapshotStates (some (snapshot.crash keep)) = [state] := by
  have hlen : ¬(encodeState state).length > kMaxFileBytes := by
    have hmax := hb.2
    simp only [kMaxFileBytes, kMaxJournalRecordBytes] at *
    omega
  rw [snapshotStates, hp.synced hf, if_neg hlen, hd]
  rfl

/-- The directory of a whole checkpoint: the snapshot and a new journal. -/
theorem checkpointed_spec {index : UInt64} {file snapshot journal : DurableFile}
    (h : Settled store directory state index [] file) (hb : store.withinBounds state)
    (hd : decodeState (encodeState state) = .ok state)
    (hroom : store.journalEpoch.toNat + 1 < 2 ^ 64) (hf : store.config.fsyncOnCommit = true)
    (hsnapshot : Published store.config (encodeState state) snapshot)
    (hjournal : Published store.config encodeJournalHeader journal)
    (hne : store.journalEpoch + 1 ≠ index) :
    (({ directory with snapshot := some snapshot }.setJournal (store.journalEpoch + 1)
      journal).removeJournal index).holds [state] := by
  have hnext := @lastJournal_rotated store { directory with snapshot := some snapshot }
    h.serves.epoch hroom journal
  have hlast := lastJournal_removed hnext hne
  intro keep
  have hothers : List.filter (fun entry => decide (entry.1 ≠ index)) directory.journals = [] := by
    rw [h.last.journals]
    simp
  rw [hothers] at hlast
  rw [hlast.crash_state, hjournal.synced hf, intact_header.2]
  show lastState (lastState {} (snapshotStates (some (snapshot.crash (keep none))) ++
    filesStates (crashFiles keep []))) [] ∈ [state]
  rw [snapshotStates_published hb hd hsnapshot hf]
  exact List.mem_singleton.mpr rfl

/-- Wherever a checkpoint stops, the directory stays settled. -/
theorem checkpoint_spec {index : UInt64} {file : DurableFile}
    (h : Settled store directory state index [] file) (hb : store.withinBounds state)
    (hd : decodeState (encodeState state) = .ok state) (hf : store.config.fsyncOnCommit = true)
    (hroom : store.journalEpoch.toNat + 1 < 2 ^ 64) :
    Serves (store.checkpoint directory state faults).2.1 (store.checkpoint directory state faults).2.2 ∧
      (store.checkpoint directory state faults).2.2.holds [state] := by
  have hby := @checkpoint_by store directory state faults h.serves.isOpen
  generalize store.checkpoint directory state faults = result at hby ⊢
  cases hby with
  | refused error => exact ⟨h.serves, h.holds⟩
  | published error snapshot =>
    have hsnap := settled_snapshot h (some snapshot)
    exact ⟨serves_skipped hsnap.serves hroom, hsnap.holds⟩
  | kept snapshot journal _ hheader =>
    have hsnap := settled_snapshot h (some snapshot)
    refine ⟨serves_rotated hsnap.serves hroom journal, fun keep => ?_⟩
    rw [crash_state_rotated hsnap.serves hroom hheader hf keep]
    exact hsnap.holds keep
  | retired snapshot journal hcontent hheader _ _ _ _ previous hnamed hne =>
    have hsnap := settled_snapshot h (some snapshot)
    obtain rfl := Option.some.inj (h.journal.symm.trans hnamed)
    exact ⟨serves_removed (serves_rotated hsnap.serves hroom journal)
      (lastJournal_rotated hsnap.serves.epoch hroom journal) rfl hne,
      checkpointed_spec h hb hd hroom hf hcontent hheader hne⟩

/-! ### Commits -/

/-- A safe commit keeps what the directory held or adds its state; an acknowledged one
settles the directory. -/
theorem commit_spec (h : Serves store directory)
    (hs : store.withinBounds state → CommitsSafely store directory state) :
    Serves (store.commit directory state faults).2.1 (store.commit directory state faults).2.2 ∧
      (∀ states, directory.holds states →
        (store.commit directory state faults).2.2.holds (state :: states)) ∧
      ((store.commit directory state faults).1 = .ok () →
        (store.commit directory state faults).2.2.holds [state]) := by
  have hrefused : ∀ error, Serves store directory ∧
      (∀ states, directory.holds states → directory.holds (state :: states)) ∧
        ((.error error : Status) = .ok () → directory.holds [state]) := fun error =>
    ⟨h, fun states hh => hh.mono (List.subset_cons_self state states), nofun⟩
  have hsettled : ∀ {left : Directory}, left.holds [state] →
      ∀ states, directory.holds states → left.holds (state :: states) := fun hh states _ =>
    hh.mono (List.cons_subset_cons state (List.nil_subset states))
  unfold commit
  rw [if_neg (not_not.mpr h.isOpen)]
  by_cases hmax : (encodeState state).length > store.config.maxStateBytes
  · simp only [if_pos hmax]
    exact hrefused _
  simp only [if_neg hmax]
  by_cases hrecord : (encodeState state).length ≤ kMaxJournalRecordBytes
  · have hb : store.withinBounds state := ⟨Nat.not_lt.mp hmax, hrecord⟩
    have hsafe := hs hb
    rcases @append_spec store directory state faults h hb hsafe with
      ⟨error, failed, left, ha, hserves, hholds⟩ |
        ⟨appended, written, index, others, file, ha, hset, hconfig, hroom, halone⟩ <;> rw [ha]
    · exact ⟨hserves, hholds, nofun⟩
    · simp only
      split_ifs with hc
      · obtain rfl := halone hc
        have hbounds : appended.withinBounds state := by
          rw [withinBounds, hconfig]
          exact hb
        have hfsync : appended.config.fsyncOnCommit = true := by rw [hconfig, hsafe.fsync]
        obtain ⟨hserves, hholds⟩ :=
          @checkpoint_spec appended written state faults index file hset hbounds hsafe.decodes hfsync
            hroom
        exact ⟨hserves, hsettled hholds, fun _ => hholds⟩
      · exact ⟨hset.serves, hsettled hset.holds, fun _ => hset.holds⟩
  · have happend : store.append directory .stateCommit (encodeState state) faults =
        (fail .oversizedInput "journal payload exceeds the supported bound", store, directory) := by
      unfold append
      rw [if_neg (not_not.mpr h.isOpen), if_pos (Nat.not_le.mp hrecord)]
    rw [happend]
    exact hrefused _

end DurableStore

end IncastGovernor
