import IncastGovernor.Coordinator.Sessions

/-! The threads behind a coordinator. The thread of `run` accepts connections and starts a thread
for each; `stop` sets a flag, wakes the accept loop with a connection of its own and shuts the
registered channels down; `run` then closes the listener, shuts down what it still finds
registered and joins every thread. Whatever holds `sessions_mutex_` is one step. -/

namespace IncastGovernor

open Foundation

/-- Where the thread of `run` stands. -/
inductive Hosting where
  | checking
  | accepting
  | registering
  | spawning (id : ℕ)
  | closing
  | joining (left : List ℕ)
  | returned (status : Status)

/-- The listener is bound. -/
def Hosting.listens : Hosting → Bool
  | .joining _ | .returned (.ok _) => false
  | _ => true

/-- Where the call of `stop` that found the flag unset stands. -/
inductive Stopper where
  | idle
  | waking
  | listing
  | unblocking (snapshot : List ℕ)
  | over
  deriving DecidableEq

/-- A coordinator with its threads. The sessions are numbered in the order they were accepted;
`sessions` and `workers` are the channels and the threads that the coordinator lists, `caller` is
the session whose thread called `stop`. -/
structure Service where
  server : Server
  hosting : Hosting := .checking
  backlog : ℕ := 0
  accepted : ℕ := 0
  sessions : List ℕ := []
  workers : List ℕ := []
  shut : ℕ → Bool := fun _ => false
  departed : ℕ → Bool := fun _ => false
  stopper : Stopper := .idle
  caller : Option ℕ := none
  woken : Bool := false

/-- A peer connects, the hosting program calls in, or a thread takes a step. `failed` is an
`accept` that fails, `reached` a wake-up connection that gets through. -/
inductive ServiceEvent where
  | connect
  | advanceEpoch (fault : Option AtomicWriteFault)
  | stop
  | host (failed : Option Error)
  | session (id : ℕ) (input : Input)
  | leave (id : ℕ)
  | stopping (reached : Bool)

/-- `handle_connection` has returned. -/
def Phase.over : Phase → Bool
  | .ended => true
  | _ => false

/-- The thread waits in `receive`. -/
def Phase.receives : Phase → Bool
  | .receiving => true
  | _ => false

namespace Service

variable (s : Service)

def coordinator : Coordinator := s.server.coordinator

/-- The thread of a session was started and has not returned. -/
def runs (id : ℕ) : Prop := id ∈ s.workers ∧ s.departed id = false

instance (id : ℕ) : Decidable (s.runs id) :=
  inferInstanceAs (Decidable (id ∈ s.workers ∧ s.departed id = false))

/-- A step of `run`: it waits in `accept` for a connection, and for each thread to return. -/
def host (failed : Option Error) : Service :=
  match s.hosting with
  | .checking => { s with hosting := if s.coordinator.stopping then .closing else .accepting }
  | .accepting =>
    match failed with
    | some error =>
      { s with
        hosting := if s.coordinator.stopping then .closing
          else .returned (.error ⟨error.code, error.detail⟩) }
    | none =>
      if s.backlog = 0 then s else { s with hosting := .registering, backlog := s.backlog - 1 }
  | .registering =>
    { s with
      hosting := .spawning s.accepted
      accepted := s.accepted + 1
      sessions := s.sessions ++ [s.accepted] }
  | .spawning id => { s with hosting := .checking, workers := s.workers ++ [id] }
  | .closing =>
    { s with
      hosting := .joining s.workers
      backlog := 0
      shut := fun id => s.shut id || decide (id ∈ s.sessions) }
  | .joining [] => { s with hosting := .returned (.ok ()), sessions := [], workers := [] }
  | .joining (id :: left) => if s.departed id then { s with hosting := .joining left } else s
  | .returned _ => s

/-- The service behind a step of the server, which may be a call of `stop`: the one that finds the
flag unset goes on. -/
def served (server : Server) (caller : Option ℕ) : Service :=
  if s.coordinator.stopping = false ∧ server.coordinator.stopping = true then
    { s with server, stopper := .waking, caller }
  else { s with server }

/-- A step of `handle_connection`. -/
def session (id : ℕ) (input : Input) : Option Service :=
  if s.runs id then (s.server.serve (.session id input)).map fun server => s.served server (some id)
  else some s

/-- The thread of a session has only its channel to take from the list. -/
def ending (id : ℕ) : Prop :=
  s.runs id ∧ (s.server.threads id).phase.over ∧ (s.caller = some id → s.stopper = .over)

instance (id : ℕ) : Decidable (s.ending id) :=
  inferInstanceAs (Decidable (s.runs id ∧ (s.server.threads id).phase.over ∧
    (s.caller = some id → s.stopper = .over)))

def leave (id : ℕ) : Service :=
  if s.ending id then
    { s with sessions := s.sessions.erase id, departed := Function.update s.departed id true }
  else s

/-- What `stop` does behind the flag. -/
def stopping (reached : Bool) : Service :=
  match s.stopper with
  | .waking =>
    { s with
      stopper := .listing
      woken := reached
      backlog := if reached ∧ s.hosting.listens then s.backlog + 1 else s.backlog }
  | .listing => { s with stopper := .unblocking s.sessions }
  | .unblocking (id :: snapshot) =>
    { s with stopper := .unblocking snapshot, shut := Function.update s.shut id true }
  | .unblocking [] => { s with stopper := .over }
  | _ => s

def perform : ServiceEvent → Option Service
  | .connect => some { s with backlog := if s.hosting.listens then s.backlog + 1 else s.backlog }
  | .advanceEpoch fault =>
    (s.server.serve (.advanceEpoch fault)).map fun server => s.served server none
  | .stop => (s.server.serve .stop).map fun server => s.served server none
  | .host failed => some (s.host failed)
  | .session id input => s.session id input
  | .leave id => some (s.leave id)
  | .stopping reached => some (s.stopping reached)

/-- An event in a process that may have died. -/
def step (s : Option Service) (event : ServiceEvent) : Option Service :=
  s.bind fun s => s.perform event

/-- A coordinator that `start` brings up, as it calls `run`. -/
def launch (config : CoordinatorConfig) (environment : Coordinator.StartEnvironment)
    (disk : Option Text) : Option Service :=
  (Server.bringUp config environment disk).map fun server => { server }

/-! ### Steps of the threads -/

/-- The event is a step of one of the coordinator's threads, which finds what it waits for. -/
def takes : ServiceEvent → Bool
  | .host failed =>
    match s.hosting with
    | .accepting => failed.isSome || decide (0 < s.backlog)
    | .joining (id :: _) => s.departed id
    | .returned _ => false
    | _ => true
  | .session id _ => decide (s.runs id) && !(s.server.threads id).phase.over
  | .leave id => decide (s.ending id)
  | .stopping _ => decide (s.stopper ≠ .idle ∧ s.stopper ≠ .over)
  | _ => false

/-- Such a step that no peer and no failure has to bring about: what a thread receives is the end
of a channel that was shut down. -/
def moves : ServiceEvent → Bool
  | .host failed => failed.isNone && s.takes (.host failed)
  | .session id input =>
    s.takes (.session id input) && (!(s.server.threads id).phase.receives || s.shut id)
  | event => s.takes event

/-! ### The server behind it -/

variable {s} {s' : Service}

@[simp] theorem host_server (failed : Option Error) : (s.host failed).server = s.server := by
  unfold host
  cases s.hosting with
  | accepting =>
    cases failed with
    | some error => rfl
    | none =>
      simp only
      split_ifs <;> rfl
  | joining left =>
    cases left with
    | nil => rfl
    | cons id left =>
      simp only
      split_ifs <;> rfl
  | _ => rfl

@[simp] theorem leave_server (id : ℕ) : (s.leave id).server = s.server := by
  unfold leave
  split_ifs <;> rfl

@[simp] theorem stopping_server (reached : Bool) : (s.stopping reached).server = s.server := by
  unfold stopping
  split <;> rfl

@[simp] theorem served_server (server : Server) (caller : Option ℕ) :
    (s.served server caller).server = server := by
  unfold served
  split_ifs <;> rfl

/-- An event of the service is one of its server, or none. -/
theorem perform_server {event : ServiceEvent} (hs : s.perform event = some s') :
    s'.server = s.server ∨ ∃ served, s.server.serve served = some s'.server := by
  cases event with
  | connect =>
    obtain rfl := Option.some.inj hs
    exact Or.inl rfl
  | advanceEpoch fault =>
    unfold perform at hs
    obtain ⟨server, hserve, rfl⟩ := Option.map_eq_some_iff.mp hs
    exact Or.inr ⟨_, by rw [hserve, served_server]⟩
  | stop =>
    unfold perform at hs
    obtain ⟨server, hserve, rfl⟩ := Option.map_eq_some_iff.mp hs
    exact Or.inr ⟨_, by rw [hserve, served_server]⟩
  | host failed =>
    obtain rfl := Option.some.inj hs
    exact Or.inl (host_server failed)
  | session id input =>
    change s.session id input = some s' at hs
    unfold session at hs
    split_ifs at hs
    · obtain ⟨server, hserve, rfl⟩ := Option.map_eq_some_iff.mp hs
      exact Or.inr ⟨_, by rw [hserve, served_server]⟩
    · obtain rfl := Option.some.inj hs
      exact Or.inl rfl
  | leave id =>
    obtain rfl := Option.some.inj hs
    exact Or.inl (leave_server id)
  | stopping reached =>
    obtain rfl := Option.some.inj hs
    exact Or.inl (stopping_server reached)

/-- The service behind a run of events. -/
def runTo (config : CoordinatorConfig) (environment : Coordinator.StartEnvironment)
    (disk : Option Text) (events : List ServiceEvent) : Option Service :=
  run step (launch config environment disk) events

/-- Every run of a service is a run of its server. -/
theorem run_server (config : CoordinatorConfig) (environment : Coordinator.StartEnvironment)
    (disk : Option Text) (events : List ServiceEvent) :
    ∀ s ∈ runTo config environment disk events, ∃ served,
      run Server.step (Server.bringUp config environment disk) served = some s.server := by
  refine run_invariant (P := fun s : Option Service => ∀ t ∈ s, ∃ served,
    run Server.step (Server.bringUp config environment disk) served = some t.server)
    (fun s event h t ht => ?_) (fun s hs => ?_) events
  · obtain ⟨before, hbefore, hperform⟩ := Option.bind_eq_some_iff.mp ht
    obtain ⟨served, hserved⟩ := h before hbefore
    rcases perform_server hperform with hsame | ⟨next, hnext⟩
    · exact ⟨served, hsame ▸ hserved⟩
    · refine ⟨served ++ [next], ?_⟩
      rw [run, List.foldl_append]
      rw [run] at hserved
      rw [hserved]
      exact hnext
  · obtain ⟨server, hserver, rfl⟩ := Option.map_eq_some_iff.mp hs
    exact ⟨[], hserver⟩

end Service

end IncastGovernor
