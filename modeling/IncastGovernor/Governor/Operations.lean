import IncastGovernor.Foundation.Run
import IncastGovernor.Governor.Evaluate

/-! The other operations of the governor and its runs. A run starts at the constructor
and applies the operations in any order. -/

namespace IncastGovernor

namespace Governor

/-- The record of a live intervention under a changed policy. -/
def revalidateRecord (policy : GovernorPolicy) (now : Timestamp) (intervention : Intervention) :
    Intervention :=
  if ¬intervention.live then intervention
  else
    let moved := { intervention with policy := policy.id, policyGeneration := policy.generation }
    match transition moved .revalidating now (ascii "policy generation changed") with
    | .ok moved => moved
    | .error _ => { moved with state := .revalidating, updatedAt := now }

def configurePolicy (g : Governor) (policy : GovernorPolicy) (now : Timestamp) : Status × Governor :=
  match policy.validate with
  | .error e => (.error e, g)
  | .ok _ =>
    let changed := g.state.policyGeneration ≠ policy.generation ∨ g.state.policy ≠ policy.id
    let state := { g.state with policy := policy.id, policyGeneration := policy.generation }
    let state :=
      if changed then
        { state with
          interventions := state.interventions.map (revalidateRecord policy now)
          requiresRevalidation := true }
      else state
    (.ok (), { g with config := { g.config with policy }, state := state })

def bindAuthority (g : Governor) (epoch : EpochId) (boot : BootIncarnation) (worker : WorkerId)
    (lease : LeaseId) (leaseExpiry : Timestamp) : Status × Governor :=
  let checks : Status := do
    if ¬epoch.valid then fail .invalidArgument "epoch is absent"
    if ¬boot.valid then fail .invalidArgument "boot incarnation is absent"
    if ¬worker.valid then fail .invalidArgument "worker identity is absent"
    if ¬lease.valid then fail .invalidArgument "lease identity is absent"
    if ¬leaseExpiry.valid then fail .invalidArgument "lease expiry is absent"
  match checks with
  | .error e => (.error e, g)
  | .ok _ =>
    (.ok (), { g with
      config := { g.config with epoch, boot, worker, lease, leaseExpiry }
      state := { g.state with epoch, boot } })

/-- The record of an intervention in a restored state. -/
def restoreRecord (lastEvaluation : Timestamp) (intervention : Intervention) : Intervention :=
  if ¬intervention.live then intervention
  else { intervention with state := .revalidating, updatedAt := lastEvaluation }

/-- Durable state restores no liveness: the binding is cleared and every live record
has to be revalidated. -/
def restoreState (g : Governor) (restored : GovernorState) : Status × Governor :=
  match restored.validate with
  | .error e => (.error e, g)
  | .ok _ =>
    (.ok (), { g with
      config := { g.config with epoch := {}, boot := {}, worker := {}, lease := {}, leaseExpiry := {} }
      state := { restored with
        epoch := {}
        boot := {}
        recovery := {}
        incidentStreak := 0
        cleanStreak := 0
        requiresRevalidation := true
        restoredFromDurable := true
        restoreCount := restored.restoreCount + 1
        interventions := restored.interventions.map (restoreRecord restored.lastEvaluation)
        generation := restored.generation.next } })

def reset (g : Governor) : Governor := create g.config

/-- The first record with the id moves to Retired, or the call fails. -/
def retireIn (id : InterventionId) (now : Timestamp) (reason : Text) :
    List Intervention → Outcome (List Intervention)
  | [] => fail .notFound "no such intervention"
  | intervention :: rest =>
    if intervention.id ≠ id then
      (retireIn id now reason rest).map fun table => intervention :: table
    else if intervention.state.terminal then
      fail .illegalTransition "intervention is already terminal"
    else (transition intervention .retired now reason).map fun moved => moved :: rest

def retire (g : Governor) (id : InterventionId) (now : Timestamp) (reason : Text) :
    Status × Governor :=
  match retireIn id now reason g.state.interventions with
  | .error e => (.error e, g)
  | .ok table =>
    (.ok (), { g with
      state := { g.state with interventions := table, generation := g.state.generation.next } })

def shutdownRecord (now : Timestamp) (intervention : Intervention) : Intervention :=
  if ¬intervention.live then intervention
  else
    match transition intervention .retired now (ascii "governor shutdown") with
    | .ok moved => moved
    | .error _ => { intervention with state := .retired, updatedAt := now }

/-- `shutdown`, with the number of records it retired. -/
def shutdown (g : Governor) (now : Timestamp) : ℕ × Governor :=
  ((g.state.interventions.filter fun intervention => intervention.live).length,
    { g with
      accepting := false
      state := { g.state with
        interventions := g.state.interventions.map (shutdownRecord now)
        recovery := {}
        incidentStreak := 0
        cleanStreak := 0
        generation := g.state.generation.next } })

/-! ### Runs -/

inductive Operation where
  | evaluate (bundle : EvidenceBundle)
  | configurePolicy (policy : GovernorPolicy) (now : Timestamp)
  | bindAuthority (epoch : EpochId) (boot : BootIncarnation) (worker : WorkerId) (lease : LeaseId)
    (leaseExpiry : Timestamp)
  | retire (id : InterventionId) (now : Timestamp) (reason : Text)
  | restoreState (state : GovernorState)
  | shutdown (now : Timestamp)
  | reset

def step (g : Governor) : Operation → Governor
  | .evaluate bundle => (g.evaluate bundle).2
  | .configurePolicy policy now => (g.configurePolicy policy now).2
  | .bindAuthority epoch boot worker lease leaseExpiry =>
    (g.bindAuthority epoch boot worker lease leaseExpiry).2
  | .retire id now reason => (g.retire id now reason).2
  | .restoreState state => (g.restoreState state).2
  | .shutdown now => (g.shutdown now).2
  | .reset => g.reset

/-- The calls of a run from the constructor: every operation with the governor it met. -/
def calls (config : GovernorConfig) (operations : List Operation) : List (Governor × Operation) :=
  Foundation.calls step (create config) operations

/-- The run invariant: the table is within its bound. -/
def tableBounded (g : Governor) : Prop := g.state.interventions.length ≤ kMaxInterventions

/-! ### Sample inputs

A bound governor and two windows of one destination, for the concrete runs of the
modules above this one. -/

def sampleConfig : GovernorConfig :=
  { policy := samplePolicy, destination := ⟨1⟩, worker := ⟨1⟩, lease := ⟨1⟩, epoch := ⟨1⟩
    boot := ⟨1⟩ }

def incidentWindow : EvidenceBundle :=
  sampleBundle 1 1000000000 [sampleRow 1 1500, sampleRow 2 1500]

def calmWindow (window : UInt64) (now : Int64) : EvidenceBundle :=
  sampleBundle window now [sampleRow 1 400, sampleRow 2 400]

end Governor

end IncastGovernor
