import IncastGovernor.Durable.Commit
import IncastGovernor.Foundation.Run

/-! Histories of sessions on one directory: each opens a store, recovers and commits, and
a crash may come at any point. The store is meant to be a register that holds the state
of the last acknowledged commit or of a later one. It is one as long as every commit is
safe; what a recovery finds does not see to that, since it appends behind a torn record
and leaves older journals where they are. -/

namespace IncastGovernor

open Foundation

/-- The directory, the store that runs on it, and the commits that were tried, the latest
first, each with whether it was acknowledged. -/
structure History where
  directory : Directory := {}
  store : Option DurableStore := none
  attempts : List (GovernorState × Bool) := []

/-- What the register may hold: the state of the last acknowledged commit, or of a later
one that was not. -/
def possible : List (GovernorState × Bool) → List GovernorState
  | [] => [{}]
  | (state, true) :: _ => [state]
  | (state, false) :: earlier => state :: possible earlier

/-- A session opens a store and recovers; a crash keeps so many cached bytes of each file,
and one during a commit comes after the file operations its faults let through. -/
inductive SessionEvent where
  | session (config : DurableConfig) (created listed : Bool)
  | commit (state : GovernorState) (faults : CommitFaults)
  | close
  | crash (keep : Option UInt64 → ℕ)
  | crashDuring (state : GovernorState) (faults : CommitFaults) (keep : Option UInt64 → ℕ)

namespace History

/-- The open and the recovery of a session. -/
def recover (h : History) (config : DurableConfig) (created listed : Bool) :
    Outcome RecoveryReport × DurableStore :=
  let (status, opened) := ({} : DurableStore).open config created
  match status with
  | .error error => (.error error, opened)
  | .ok () => opened.recover h.directory listed

def step (h : History) (event : SessionEvent) : History :=
  match h.store, event with
  | none, .session config created listed =>
    match h.recover config created listed with
    | (.ok _, store) => { h with store := some store }
    | (.error _, _) => h
  | some store, .commit state faults =>
    let (status, store, directory) := store.commit h.directory state faults
    { directory, store := some store, attempts := (state, decide (status = .ok ())) :: h.attempts }
  | some _, .close => { h with store := none }
  | _, .crash keep => { h with store := none, directory := h.directory.crash keep }
  | some store, .crashDuring state faults keep =>
    let (_, _, directory) := store.commit h.directory state faults
    { directory := directory.crash keep, attempts := (state, false) :: h.attempts }
  | _, _ => h

/-- A recovery reports a state the register may hold, without its live authority. -/
def recoversCommitted (h : History) : SessionEvent → Prop
  | .session config created listed => ∀ report ∈ (h.recover config created listed).1.toOption,
      ∃ state ∈ possible h.attempts, report.state = clearAuthority state
  | _ => True

instance (h : History) : DecidablePred h.recoversCommitted
  | .session config created listed =>
    inferInstanceAs (Decidable (∀ report ∈ (h.recover config created listed).1.toOption,
      ∃ state ∈ possible h.attempts, report.state = clearAuthority state))
  | .commit _ _ | .close | .crash _ | .crashDuring _ _ _ => isTrue trivial

/-- The commit of a running store, if it is not refused for its size, is safe. -/
def commitsSafely (h : History) : SessionEvent → Prop
  | .commit state _ | .crashDuring state _ _ => ∀ store ∈ h.store,
      store.withinBounds state → store.CommitsSafely h.directory state
  | _ => True

instance (h : History) : DecidablePred h.commitsSafely
  | .commit state _ | .crashDuring state _ _ =>
    inferInstanceAs (Decidable (∀ store ∈ h.store,
      store.withinBounds state → store.CommitsSafely h.directory state))
  | .session _ _ _ | .close | .crash _ => isTrue trivial

/-- The invariant of a history: however a crash leaves the directory, it holds a state
the register may hold, and a running store serves it. -/
structure Durable (h : History) : Prop where
  holds : h.directory.holds (possible h.attempts)
  serves : ∀ store ∈ h.store, Serves store h.directory

theorem open_journal (config : DurableConfig) (created : Bool) :
    (({} : DurableStore).open config created).2.journal = none := by
  unfold DurableStore.open
  split_ifs <;> rfl

/-- A session that came up serves the directory it found. -/
theorem recover_ok {h : History} {config : DurableConfig} {created listed : Bool}
    {report : RecoveryReport} {store : DurableStore}
    (hr : h.recover config created listed = (.ok report, store)) :
    Serves store h.directory ∧ report.state = clearAuthority h.directory.state := by
  unfold recover at hr
  cases ho : ({} : DurableStore).open config created with
  | mk status opened =>
    rw [ho] at hr
    cases status with
    | error error => cases hr
    | ok u =>
      have hopened := open_journal config created
      rw [ho] at hopened
      exact ⟨DurableStore.serves_recovered (fun _ => hopened) hr, recover_state (congrArg Prod.fst hr)⟩

theorem durable_commit {h : History} (hd : h.Durable) {store : DurableStore}
    (hs : h.store = some store) {state : GovernorState} {faults : CommitFaults}
    (hsafe : store.withinBounds state → store.CommitsSafely h.directory state) :
    (h.step (.commit state faults)).Durable := by
  obtain ⟨hserves, hholds, hacked⟩ :=
    @DurableStore.commit_spec store h.directory state faults (hd.serves store hs) hsafe
  unfold step
  rw [hs]
  refine ⟨?_, fun next hn => ?_⟩
  · show (store.commit h.directory state faults).2.2.holds
      (possible ((state, decide ((store.commit h.directory state faults).1 = .ok ())) :: h.attempts))
    by_cases hok : (store.commit h.directory state faults).1 = .ok ()
    · rw [decide_eq_true hok]
      exact hacked hok
    · rw [decide_eq_false hok]
      exact hholds _ hd.holds
  · obtain rfl := Option.some.inj hn
    exact hserves

theorem holds_crash {directory : Directory} {states : List GovernorState}
    (h : directory.holds states) (keep : Option UInt64 → ℕ) :
    (directory.crash keep).holds states := fun again => by
  rw [Directory.crash_crash_state]
  exact h keep

theorem durable_crashDuring {h : History} (hd : h.Durable) {store : DurableStore}
    (hs : h.store = some store) {state : GovernorState} {faults : CommitFaults}
    {keep : Option UInt64 → ℕ}
    (hsafe : store.withinBounds state → store.CommitsSafely h.directory state) :
    (h.step (.crashDuring state faults keep)).Durable := by
  obtain ⟨-, hholds, -⟩ :=
    @DurableStore.commit_spec store h.directory state faults (hd.serves store hs) hsafe
  unfold step
  rw [hs]
  exact ⟨holds_crash (hholds _ hd.holds) keep, nofun⟩

/-- What one event keeps. -/
theorem durable_step {h : History} (hd : h.Durable) (event : SessionEvent)
    (hsafe : h.commitsSafely event) : (h.step event).Durable := by
  cases hs : h.store with
  | none =>
    cases event with
    | session config created listed =>
      unfold step
      rw [hs]
      simp only
      generalize hr : h.recover config created listed = result
      obtain ⟨outcome, store⟩ := result
      cases outcome with
      | error error => exact hd
      | ok report =>
        refine ⟨hd.holds, fun next hn => ?_⟩
        obtain rfl := Option.some.inj hn
        exact (recover_ok hr).1
    | crash keep =>
      unfold step
      rw [hs]
      exact ⟨holds_crash hd.holds keep, nofun⟩
    | _ =>
      unfold step
      rw [hs]
      exact hd
  | some store =>
    cases event with
    | session config created listed =>
      unfold step
      rw [hs]
      exact hd
    | commit state faults => exact durable_commit hd hs (hsafe store hs)
    | close =>
      unfold step
      rw [hs]
      exact ⟨hd.holds, nofun⟩
    | crash keep =>
      unfold step
      rw [hs]
      exact ⟨holds_crash hd.holds keep, nofun⟩
    | crashDuring state faults keep => exact durable_crashDuring hd hs (hsafe store hs)

theorem recoversCommitted_of_durable {h : History} (hd : h.Durable) (event : SessionEvent) :
    h.recoversCommitted event := by
  cases event with
  | session config created listed =>
    intro report hr
    generalize hresult : h.recover config created listed = result at hr
    obtain ⟨outcome, store⟩ := result
    cases outcome with
    | error error => cases hr
    | ok found =>
    obtain rfl := Option.some.inj hr
    obtain ⟨keep, hkeep⟩ := h.directory.exists_crash_state
    exact ⟨h.directory.state, hkeep ▸ hd.holds keep, (recover_ok hresult).2⟩
  | _ => trivial

theorem durable_empty : ({} : History).Durable := by
  refine ⟨fun keep => ?_, nofun⟩
  exact List.mem_singleton.mpr rfl

/-- The store is a register over a history: every recovery of it reports the state of the
last acknowledged commit or of a later one. -/
def isRegister (events : List SessionEvent) : Prop :=
  ∀ call ∈ calls step {} events, call.1.recoversCommitted call.2

instance (events : List SessionEvent) : Decidable (isRegister events) := by
  delta isRegister; infer_instance

/-- Over every history of sessions and crashes whose commits are safe, the store is a
register. -/
theorem run_recovers_committed (events : List SessionEvent)
    (h : ∀ call ∈ calls step {} events, call.1.commitsSafely call.2) : isRegister events := by
  intro call hcall
  have hdurable : call.1.Durable :=
    @calls_invariant_of_calls _ _ step Durable commitsSafely
      (fun _ event hd hsafe => durable_step hd event hsafe) {} durable_empty events h call hcall
  exact recoversCommitted_of_durable hdurable call.2

/-- A state with a generation of its own. -/
def sampleState (generation : UInt64) : GovernorState := { generation := ⟨generation⟩ }

def sampleSession : SessionEvent := .session { directory := ascii "d" } true true

/-- The second append gets one byte to the file. -/
def tornAppend : CommitFaults := { append := some (.shortWrite 1) }

/-- A crash in the middle of an append hides none of the commits before it. -/
theorem run_recovers_committed_torn :
    isRegister [sampleSession, .commit (sampleState 1) {},
      .crashDuring (sampleState 2) tornAppend fun _ => 1, sampleSession] :=
  run_recovers_committed _ (by decide +kernel)

/-- A commit after a recovery that found a torn record. -/
def tornThenCommitted : List SessionEvent :=
  [sampleSession, .commit (sampleState 1) {}, .crashDuring (sampleState 2) tornAppend fun _ => 1,
    sampleSession, .commit (sampleState 3) {}, .crash fun _ => 0, sampleSession]

/-- The commit was acknowledged, and the next recovery does not find it. -/
theorem commit_behind_torn_record_lost : ¬isRegister tornThenCommitted := by
  decide +kernel

end History

end IncastGovernor
