import IncastGovernor.Durable.History
import IncastGovernor.Governor.Steps
import IncastGovernor.Worker.Runs

/-! The worker program and a fleet of it. The program takes its lease, brings up a governor under
the grant, on what its state directory holds, and goes through its cycles: it evaluates the
evidence of a window, publishes the decision, and commits the governor's state behind the answer.
A fleet is a deployment in which every process runs the program; the evidence of each window is
left open. -/

namespace IncastGovernor

open Foundation

open Coordinator (Section)

structure WorkerOptions where
  worker : WorkerConfig := {}
  cycles : ℕ := 3
  recovery : Bool := false
  durable : Option DurableConfig := none

/-- The configuration of the governor under a grant. -/
def WorkerOptions.governorConfig (options : WorkerOptions) (grant : MessageLeaseGrant) :
    GovernorConfig :=
  let policy := makeDefaultPolicy
  { policy := { policy with
      recovery := { policy.recovery with enabled := options.recovery, requiredCleanWindows := 1 } }
    destination := grant.destination
    destinationGeneration := grant.destinationGeneration
    worker := grant.worker
    lease := grant.lease
    epoch := grant.epoch
    boot := grant.boot
    leaseExpiry := grant.expiresAt }

/-- Where the program stands: a call of the worker is next, or under way, or the program goes on by
itself. -/
inductive ProgramStage where
  | connecting
  | handshaking
  | requesting
  | acquiring
  | opening
  | deciding
  | publishing
  | journalling
  | exited (code : ℕ)

/-- The program, with the windows its governor evaluated and the states it had behind every answer
that did not fence the worker. -/
structure WorkerProgram where
  options : WorkerOptions := {}
  stage : ProgramStage := .connecting
  grant : MessageLeaseGrant := {}
  governor : Governor := {}
  cycle : ℕ := 0
  exitCode : ℕ := 0
  history : History := {}
  evaluations : List (Governor × EvidenceBundle) := []
  answered : List GovernorState := []

namespace WorkerProgram

variable (p : WorkerProgram)

def exit (code : ℕ) : WorkerProgram := { p with stage := .exited code }

/-- The head of the loop. -/
def next : WorkerProgram :=
  if p.cycle < p.options.cycles then { p with stage := .deciding } else p.exit p.exitCode

/-- The call that is next. -/
def calls (bundle : EvidenceBundle) : Option Call :=
  match p.stage with
  | .connecting => some .connectAndHandshake
  | .requesting => some .acquireLease
  | .deciding => some (.publish (p.governor.evaluate bundle).1)
  | _ => none

/-- The program as it makes that call, which goes out or fails. -/
def called (bundle : EvidenceBundle) (out : Bool) : WorkerProgram :=
  match p.stage with
  | .connecting => if out then { p with stage := .handshaking } else p.exit 1
  | .requesting => if out then { p with stage := .acquiring } else p.exit 2
  | .deciding =>
    let evaluated := { p with
      governor := (p.governor.evaluate bundle).2
      evaluations := p.evaluations ++ [(p.governor, bundle)] }
    if out then { evaluated with stage := .publishing } else evaluated.exit 4
  | _ => p

/-- The program behind the answer to a call, with the worker it leaves. -/
def settled (worker : GovernorWorker) (answer : Answer) : WorkerProgram :=
  match p.stage, answer with
  | .handshaking, .status (.ok ()) => { p with stage := .requesting }
  | .handshaking, _ => p.exit 1
  | .acquiring, .grant (.ok grant) => { p with stage := .opening, grant }
  | .acquiring, _ => p.exit 2
  | .publishing, .ack (.ok ack) =>
    if ¬ack.accepted ∧ worker.fenced then p.exit 3
    else
      { p with
        stage := .journalling
        exitCode := if ack.accepted then p.exitCode else 5
        answered := p.answered ++ [p.governor.state] }
  | .publishing, _ => p.exit 4
  | _, _ => p

/-- The governor that a start on a recovered state brings up, bound under the grant. -/
def rebound (governor : Governor) (state : GovernorState) : Outcome Governor :=
  match governor.restoreState state with
  | (.error error, _) => .error error
  | (.ok (), restored) =>
    match restored.bindAuthority p.grant.epoch p.grant.boot p.grant.worker p.grant.lease
        p.grant.expiresAt with
    | (.error error, _) => .error error
    | (.ok (), bound) => .ok bound

/-- The start behind the grant. -/
def opened (created listed : Bool) : WorkerProgram :=
  let governor := Governor.create (p.options.governorConfig p.grant)
  match p.options.durable with
  | none => { p with governor }.next
  | some config =>
    match p.history.recover config created listed with
    | (.error _, _) => p.exit 1
    | (.ok report, _) =>
      let running := { p with governor, history := p.history.step (.session config created listed) }
      if ¬report.recoveredCommittedState then running.next
      else if report.state.destination.valid ∧ report.state.destination ≠ p.grant.destination then
        running.exit 1
      else
        match p.rebound governor report.state with
        | .error _ => running.exit 1
        | .ok bound => { running with governor := bound }.next

/-- The end of a cycle. -/
def journalled (faults : CommitFaults) : WorkerProgram :=
  let done := { p with cycle := p.cycle + 1 }
  match p.options.durable, p.history.store with
  | some _, some store =>
    let committed := { done with history := p.history.step (.commit p.governor.state faults) }
    match (store.commit p.history.directory p.governor.state faults).1 with
    | .error _ => committed.exit 1
    | .ok () => committed.next
  | _, _ => done.next

end WorkerProgram

/-! ### Fleets -/

/-- What settles a call of a process: the worker it leaves, and the answer. -/
def Deployment.settles (d : Deployment) (id : ℕ) (lost : Option Error) :
    Option (GovernorWorker × Answer) :=
  let p := d.processes id
  match p.calling with
  | none => none
  | some call =>
    if p.ended then none
    else
      match lost, (d.links id).replies with
      | some error, _ => some (p.worker.settle call (.error error))
      | none, [] => none
      | none, frame :: _ => some (p.worker.settle call (.ok frame))

structure Fleet where
  deployment : Deployment
  programs : ℕ → WorkerProgram

/-- A program makes its next call, settles one, or goes on by itself; its host crashes, between two
of these or during a commit; a session's thread takes a step, or an operator or the hosting program
goes through a section. -/
inductive FleetEvent where
  | call (id : ℕ) (bundle : EvidenceBundle) (sent : Bool)
  | settle (id : ℕ) (lost : Option Error)
  | opened (id : ℕ) (created listed : Bool)
  | journal (id : ℕ) (faults : CommitFaults)
  | crash (id : ℕ) (keep : Option UInt64 → ℕ)
  | crashDuring (id : ℕ) (faults : CommitFaults) (keep : Option UInt64 → ℕ)
  | session (id : ℕ) (input : Input)
  | operate (s : Section)

/-- The process an event belongs to. -/
def FleetEvent.owner : FleetEvent → Option ℕ
  | .call id _ _ | .settle id _ | .opened id _ _ | .journal id _ | .crash id _
  | .crashDuring id _ _ => some id
  | _ => none

namespace Fleet

variable (f : Fleet)

/-- The event of the deployment, if there is one. -/
def deploys : FleetEvent → Option DeploymentEvent
  | .call id bundle sent => ((f.programs id).calls bundle).map fun call => .call id call sent
  | .settle id lost =>
    match (f.programs id).stage with
    | .exited _ => none
    | _ => some (.settle id lost)
  | .session id input => some (.session id input)
  | .operate s => some (.operate s)
  | _ => none

/-- The section an event performs. -/
def performs (event : FleetEvent) : Option Section :=
  (f.deploys event).bind f.deployment.performs

/-- The program of a process behind an event of its own. -/
def program (id : ℕ) : FleetEvent → WorkerProgram
  | .call _ bundle sent =>
    let p := f.programs id
    match p.calls bundle with
    | none => p
    | some call =>
      p.called bundle (sent && ((f.deployment.processes id).worker.checks call).isOk)
  | .settle _ lost =>
    match f.deployment.settles id lost with
    | none => f.programs id
    | some (worker, answer) => (f.programs id).settled worker answer
  | .opened _ created listed =>
    match (f.programs id).stage with
    | .opening => (f.programs id).opened created listed
    | _ => f.programs id
  | .journal _ faults =>
    match (f.programs id).stage with
    | .journalling => (f.programs id).journalled faults
    | _ => f.programs id
  | .crash _ keep =>
    let p := f.programs id
    { p with stage := .exited 1, history := p.history.step (.crash keep) }
  | .crashDuring _ faults keep =>
    let p := f.programs id
    match p.stage with
    | .journalling =>
      { p with
        stage := .exited 1
        history := p.history.step (.crashDuring p.governor.state faults keep) }
    | _ => p
  | _ => f.programs id

def perform (event : FleetEvent) : Option Fleet :=
  (match f.deploys event with
    | none => some f.deployment
    | some deployed => f.deployment.perform deployed).map fun deployment =>
      { deployment
        programs :=
          match event.owner with
          | none => f.programs
          | some id => Function.update f.programs id (f.program id event) }

/-- An event in a coordinator that may have died. -/
def step (f : Option Fleet) (event : FleetEvent) : Option Fleet :=
  f.bind fun f => f.perform event

/-- A coordinator that `start` brings up, with programs that have not connected yet, each beside
what its state directory has been through. -/
def launch (config : CoordinatorConfig) (environment : Coordinator.StartEnvironment)
    (disk : Option Text) (options : ℕ → WorkerOptions) (homes : ℕ → History) : Option Fleet :=
  (Deployment.launch config environment disk fun id => (options id).worker).map fun deployment =>
    { deployment
      programs := fun id => { options := options id, history := { homes id with store := none } } }

end Fleet

end IncastGovernor
