import IncastGovernor.Coordinator.Ledger
import IncastGovernor.Coordinator.Messages
import IncastGovernor.Foundation.KeyedTable
import IncastGovernor.Foundation.Run

/-! The coordinator: it owns the epoch and the lease table and serves any number of
sessions at once. Every access of the shared state is a section under one mutex, so
a run is a list of sections, in whatever order the sessions' threads take the mutex.
The frames of one session go through their sections one after the other; between two
of them the other sessions may run. The clock, the iteration order of the hash map
and the outcome of a ledger write are inputs of the section. -/

namespace IncastGovernor

open Foundation

structure CoordinatorConfig where
  leaseDuration : Duration := ⟨2000000000⟩
  controlToken : Text := []
  directory : Text := []
  initialEpoch : EpochId := ⟨1⟩

structure LeaseRecord where
  grant : MessageLeaseGrant := {}
  revoked : Bool := false
  expired : Bool := false
  leaseSequence : UInt64 := 0
  lastDecisionAt : Timestamp := {}
  lastKind : IncidentKind := .unknown

namespace LeaseRecord

def key (record : LeaseRecord) : UInt64 := record.grant.lease.value

def live (record : LeaseRecord) : Prop := record.revoked = false

instance (record : LeaseRecord) : Decidable record.live :=
  inferInstanceAs (Decidable (record.revoked = false))

/-- The record is held by an incarnation of a worker. -/
def heldBy (record : LeaseRecord) (boot : BootIncarnation) (worker : WorkerId) : Prop :=
  record.grant.boot = boot ∧ record.grant.worker = worker

instance (record : LeaseRecord) (boot : BootIncarnation) (worker : WorkerId) :
    Decidable (record.heldBy boot worker) := by
  delta heldBy; infer_instance

/-- The record is a live lease of the destination a request asks for. -/
def claimedBy (record : LeaseRecord) (request : MessageLeaseRequest) : Prop :=
  record.grant.destination = request.destination ∧ record.live

instance (record : LeaseRecord) (request : MessageLeaseRequest) :
    Decidable (record.claimedBy request) := by
  delta claimedBy; infer_instance

def revoke (record : LeaseRecord) : LeaseRecord := { record with revoked := true }

/-- A grant refreshed for the same incarnation. -/
def refresh (record : LeaseRecord) (attempt : UInt64) (now expires : Timestamp) (epoch : EpochId) :
    LeaseRecord :=
  { record with grant := { record.grant with
      attempt, grantedAt := now, expiresAt := expires, epoch } }

/-- A grant renewed: its epoch and attempt stay. -/
def renew (record : LeaseRecord) (now expires : Timestamp) : LeaseRecord :=
  { record with grant := { record.grant with grantedAt := now, expiresAt := expires } }

theorem revoke_key (record : LeaseRecord) : record.revoke.key = record.key := rfl

theorem renew_key (record : LeaseRecord) (now expires : Timestamp) :
    (record.renew now expires).key = record.key := rfl

/-- The record after an accepted decision. -/
def decided (record : LeaseRecord) (publish : MessageDecisionPublish) : LeaseRecord :=
  { record with
    leaseSequence := publish.sequence
    lastDecisionAt := publish.decidedAt
    lastKind := publish.kind }

end LeaseRecord

/-- `leases_`, keyed by lease id. -/
abbrev LeaseTable := KeyedTable LeaseRecord.key

/-- A table cannot hold more nodes than a signed size counts: an insertion into a
table this large throws, and the exception ends the process. -/
def kLeaseTableMax : ℕ := 2 ^ 63 - 1

structure CoordinatorStatistics where
  connections : UInt64 := 0
  leasesGranted : UInt64 := 0
  leasesDenied : UInt64 := 0
  leasesRenewed : UInt64 := 0
  decisionsAccepted : UInt64 := 0
  decisionsRejected : UInt64 := 0
  epochAdvances : UInt64 := 0
  framesIn : UInt64 := 0
  framesOut : UInt64 := 0

structure Coordinator where
  config : CoordinatorConfig := {}
  boot : BootIncarnation := {}
  nextSession : UInt64 := 1
  nextLease : UInt64 := 1
  epoch : EpochId := {}
  leases : LeaseTable := {}
  statistics : CoordinatorStatistics := {}
  ledger : EpochLedger := {}
  ledgerOpen : Bool := false
  stopping : Bool := false

namespace Coordinator

variable (c : Coordinator)

def create (config : CoordinatorConfig) : Coordinator :=
  { config, epoch := if config.initialEpoch.valid then config.initialEpoch else ⟨1⟩ }

def expiry (now : Timestamp) : Timestamp := ⟨now.nanos + c.config.leaseDuration.nanos⟩

/-! ### The epoch -/

/-- The epoch moves on and the advance is counted, in memory. -/
def bumpEpoch : Coordinator :=
  { c with
    epoch := c.epoch.next
    statistics := { c.statistics with epochAdvances := c.statistics.epochAdvances + 1 } }

/-- The current epoch is written to the ledger, when one is open. -/
def persistEpoch (fault : Option AtomicWriteFault) : Coordinator × Status :=
  if c.ledgerOpen then
    ({ c with ledger := (c.ledger.store c.epoch fault).2 }, (c.ledger.store c.epoch fault).1)
  else (c, .ok ())

/-- `advance_epoch`. The epoch has advanced even when the write fails. -/
def advanceEpoch (fault : Option AtomicWriteFault) : Coordinator × Status :=
  c.bumpEpoch.persistEpoch fault

/-! ### Leases -/

/-- The loop of `grant_lease`: foreign leases of the destination are revoked until one
of the same incarnation is found and refreshed. -/
def claimRecords (request : MessageLeaseRequest) (now : Timestamp) :
    List LeaseRecord → List LeaseRecord × Bool × Option MessageLeaseGrant
  | [] => ([], false, none)
  | record :: rest =>
    if record.claimedBy request then
      if record.heldBy request.boot request.worker then
        let refreshed := record.refresh request.attempt now (c.expiry now) c.epoch
        (refreshed :: rest, false, some refreshed.grant)
      else
        let (claimed, _, renewed) := claimRecords request now rest
        (record.revoke :: claimed, true, renewed)
    else
      let (claimed, superseded, renewed) := claimRecords request now rest
      (record :: claimed, superseded, renewed)

theorem claimRecords_keys (request : MessageLeaseRequest) (now : Timestamp)
    (records : List LeaseRecord) :
    (c.claimRecords request now records).1.map LeaseRecord.key = records.map LeaseRecord.key := by
  induction records with
  | nil => rfl
  | cons record rest ih =>
    unfold claimRecords
    split_ifs
    · rfl
    · rw [List.map_cons, List.map_cons, ih]
      rfl
    · rw [List.map_cons, List.map_cons, ih]

/-- The lease table after the loop. -/
def claimTable (request : MessageLeaseRequest) (now : Timestamp) (order : Enumeration LeaseRecord) :
    LeaseTable :=
  c.leases.withEntries (c.claimRecords request now (order.order c.leases.entries)).1 (by
    rw [claimRecords_keys]
    exact (order.perm c.leases.entries).map LeaseRecord.key)

/-- The coordinator after the loop. -/
def claimed (request : MessageLeaseRequest) (now : Timestamp) (order : Enumeration LeaseRecord) :
    Coordinator :=
  { c with leases := c.claimTable request now order }

/-- The grant of a fresh lease. -/
def freshGrant (request : MessageLeaseRequest) (now : Timestamp) : MessageLeaseGrant :=
  { lease := ⟨c.nextLease⟩
    destination := request.destination
    destinationGeneration := request.destinationGeneration
    epoch := c.epoch
    boot := request.boot
    worker := request.worker
    policy := request.policy
    policyGeneration := request.policyGeneration
    grantedAt := now
    expiresAt := c.expiry now
    attempt := request.attempt }

/-- A fresh lease is entered in the table; no process survives a full one. -/
def issueLease (request : MessageLeaseRequest) (now : Timestamp) :
    Option (Coordinator × Outcome MessageLeaseGrant) :=
  if c.leases.entries.length ≥ kLeaseTableMax then none
  else
    let grant := c.freshGrant request now
    some
      ({ c with
        nextLease := c.nextLease + 1
        leases := c.leases.emplace { grant }
        statistics := { c.statistics with leasesGranted := c.statistics.leasesGranted + 1 } },
        .ok grant)

/-- `grant_lease`; no result when the process dies. -/
def grantLease (request : MessageLeaseRequest) (now : Timestamp) (order : Enumeration LeaseRecord)
    (fault : Option AtomicWriteFault) : Option (Coordinator × Outcome MessageLeaseGrant) :=
  if ¬request.worker.valid ∨ ¬request.boot.valid then
    some (c, fail .invalidArgument "lease request carries no worker incarnation")
  else if ¬request.destination.valid then
    some (c, fail .invalidArgument "lease request carries no destination")
  else
    let ending := (c.claimRecords request now (order.order c.leases.entries)).2
    let claimed := c.claimed request now order
    match ending.2 with
    | some grant =>
      some
        ({ claimed with
          statistics := { c.statistics with leasesRenewed := c.statistics.leasesRenewed + 1 } },
          .ok grant)
    | none =>
      let advanced := if ending.1 then claimed.advanceEpoch fault else (claimed, .ok ())
      match advanced.2 with
      | .error error => some (advanced.1, .error error)
      | .ok () => advanced.1.issueLease request now

/-- The reply to a refused request, and its count. -/
def denyLease (error : Error) : Coordinator × MessageLeaseDenied :=
  ({ c with statistics := { c.statistics with leasesDenied := c.statistics.leasesDenied + 1 } },
    { reason := if error.code = .staleGeneration then .epochMismatch else .missingEvidence
      detail := error.detail
      currentEpoch := c.epoch })

def denied (reason : RefusalReason) (detail : String) : MessageLeaseDenied :=
  { reason, detail := ascii detail, currentEpoch := c.epoch }

/-- The LeaseRenew branch: a grant, or the denial to send. -/
def renewLease (renew : MessageLeaseRenew) (now : Timestamp) :
    Coordinator × Except MessageLeaseDenied MessageLeaseGrant :=
  match c.leases.find renew.lease.value with
  | some record =>
    if record.live then
      if renew.epoch ≠ c.epoch then
        (c, .error (c.denied .epochMismatch "renewal presented a superseded epoch"))
      else if record.grant.boot ≠ renew.boot then
        (c, .error (c.denied .bootMismatch "renewal presented a previous boot incarnation"))
      else
        ({ c with
          leases := c.leases.modify renew.lease.value (fun r => r.renew now (c.expiry now))
            fun r => r.renew_key now (c.expiry now)
          statistics := { c.statistics with leasesRenewed := c.statistics.leasesRenewed + 1 } },
          .ok (record.renew now (c.expiry now)).grant)
    else (c, .error (c.denied .leaseMissing "lease is unknown or revoked"))
  | none => (c, .error (c.denied .leaseMissing "lease is unknown or revoked"))

/-- The count of a denied renewal. -/
def countDenied : Coordinator :=
  { c with statistics := { c.statistics with leasesDenied := c.statistics.leasesDenied + 1 } }

/-! ### Decisions -/

/-- The checks a decision passes before it is accepted, with the text of the first that
denies it. -/
def publishRefusal (publish : MessageDecisionPublish) (record : LeaseRecord) (now : Timestamp) :
    Option (RefusalReason × Text) :=
  if ¬record.live then some (.leaseMissing, ascii "decision references a revoked lease")
  else if publish.epoch ≠ c.epoch then
    some (.epochMismatch, ascii "decision was produced under a superseded epoch")
  else if record.grant.boot ≠ publish.boot then
    some (.bootMismatch, ascii "decision was produced by a previous boot incarnation")
  else if record.grant.worker ≠ publish.worker then
    some (.epochMismatch, ascii "decision was produced by a different worker")
  else if record.grant.expiresAt < now then
    some (.leaseExpired, ascii "lease expired before the decision was published")
  else if publish.sequence ≤ record.leaseSequence then
    some (.reorderedEvidence, ascii "decision sequence is not newer than the last accepted one")
  else none

/-- What a published decision does to its record: a live lease named under another
epoch is revoked, an accepted decision is noted. -/
def publishRecord (publish : MessageDecisionPublish) (now : Timestamp) (record : LeaseRecord) :
    LeaseRecord :=
  if record.live ∧ publish.epoch ≠ c.epoch then record.revoke
  else if c.publishRefusal publish record now = none then record.decided publish
  else record

theorem publishRecord_key (publish : MessageDecisionPublish) (now : Timestamp)
    (record : LeaseRecord) : (c.publishRecord publish now record).key = record.key := by
  unfold publishRecord
  split_ifs <;> rfl

/-- The DecisionPublish branch. -/
def publishDecision (publish : MessageDecisionPublish) (now : Timestamp) :
    Coordinator × MessageDecisionAck :=
  let accept := { c with statistics := { c.statistics with
    decisionsAccepted := c.statistics.decisionsAccepted + 1 } }
  let reject := { c with statistics := { c.statistics with
    decisionsRejected := c.statistics.decisionsRejected + 1 } }
  match c.leases.find publish.lease.value with
  | none =>
    (reject,
      { reason := .leaseMissing, detail := ascii "decision references an unknown lease"
        currentEpoch := c.epoch })
  | some record =>
    let leases := c.leases.modify publish.lease.value (c.publishRecord publish now)
      (c.publishRecord_key publish now)
    match c.publishRefusal publish record now with
    | some (reason, detail) =>
      ({ reject with leases }, { reason, detail, currentEpoch := c.epoch })
    | none =>
      ({ accept with leases },
        { accepted := true, detail := ascii "accepted", currentEpoch := c.epoch })

/-! ### Sessions and control -/

def hello : Coordinator × MessageHelloAck :=
  ({ c with nextSession := c.nextSession + 1 },
    { session := c.nextSession, epoch := c.epoch, coordinatorBoot := c.boot })

def heartbeat : MessageEpochAdvance := { epoch := c.epoch, reason := ascii "heartbeat" }

def liveLeaseCount : ℕ :=
  (c.leases.entries.filter fun record => record.live ∧ record.expired = false).length

/-- The RevokeAll section: the epoch advances in memory only. -/
def revokeAll : Coordinator :=
  { c with leases := c.leases.mapEntries LeaseRecord.revoke LeaseRecord.revoke_key }.bumpEpoch

def tokenAccepted (request : ControlRequest) : Prop :=
  c.config.controlToken ≠ [] ∧ request.token = c.config.controlToken

instance (request : ControlRequest) : Decidable (c.tokenAccepted request) := by
  delta tokenAccepted; infer_instance

/-- `handle_control` up to the read of the epoch for the reply. -/
def handleControl (request : ControlRequest) (fault : Option AtomicWriteFault) :
    Coordinator × ControlResponse :=
  if ¬c.tokenAccepted request then (c, { detail := ascii "control token rejected" })
  else
    match request.opcode with
    | .status =>
      (c,
        { ok := true, detail := ascii "ok", epoch := c.epoch
          leaseCount := UInt64.ofNat c.liveLeaseCount
          decisionsAccepted := c.statistics.decisionsAccepted
          decisionsRejected := c.statistics.decisionsRejected })
    | .advanceEpoch =>
      let (advanced, status) := c.advanceEpoch fault
      (advanced,
        match status with
        | .ok () => { ok := true, detail := ascii "epoch advanced" }
        | .error error => { detail := error.detail })
    | .revokeAll =>
      (c.revokeAll, { ok := true, detail := ascii "all leases revoked; epoch advanced" })
    | .shutdown => (c, { ok := true, detail := ascii "shutdown accepted" })

/-- The reply with the epoch of the moment it is read. -/
def answerControl (response : ControlResponse) : ControlResponse :=
  { response with epoch := c.epoch }

/-! ### Sections -/

/-- The sections of `handle_connection` and of the functions it calls. `advanceEpoch` is
also called by the program that hosts the coordinator; `stop` follows an accepted
shutdown request once its reply is sent, or a shutdown frame. -/
inductive Section where
  | connected
  | frameIn
  | frameOut
  | hello (hello : MessageHello)
  | leaseRequest (request : MessageLeaseRequest) (now : Timestamp) (order : Enumeration LeaseRecord)
    (fault : Option AtomicWriteFault)
  | denyLease (error : Error)
  | leaseRenew (renew : MessageLeaseRenew) (now : Timestamp)
  | countDenied
  | decisionPublish (publish : MessageDecisionPublish) (now : Timestamp)
  | heartbeat
  | control (request : ControlRequest) (fault : Option AtomicWriteFault)
  | answerControl (response : ControlResponse)
  | advanceEpoch (fault : Option AtomicWriteFault)
  | stop

/-- The coordinator after a section; none when the section ends the process. -/
def perform : Section → Option Coordinator
  | .connected =>
    some { c with statistics := { c.statistics with connections := c.statistics.connections + 1 } }
  | .frameIn =>
    some { c with statistics := { c.statistics with framesIn := c.statistics.framesIn + 1 } }
  | .frameOut =>
    some { c with statistics := { c.statistics with framesOut := c.statistics.framesOut + 1 } }
  | .hello _ => some c.hello.1
  | .leaseRequest request now order fault =>
    (c.grantLease request now order fault).map fun result => result.1
  | .denyLease error => some (c.denyLease error).1
  | .leaseRenew renew now => some (c.renewLease renew now).1
  | .countDenied => some c.countDenied
  | .decisionPublish publish now => some (c.publishDecision publish now).1
  | .heartbeat => some c
  | .control request fault => some (c.handleControl request fault).1
  | .answerControl _ => some c
  | .advanceEpoch fault => some (c.advanceEpoch fault).1
  | .stop => some { c with stopping := true }

/-- A section of a process that may have died. -/
def step (c : Option Coordinator) (s : Section) : Option Coordinator := c.bind fun c => c.perform s

/-- The grant a section sends to a worker, when it sends one. -/
def granted : Section → Option MessageLeaseGrant
  | .leaseRequest request now order fault =>
    (c.grantLease request now order fault).bind fun result => result.2.toOption
  | .leaseRenew renew now => (c.renewLease renew now).2.toOption
  | _ => none

/-! ### Start -/

/-- What `start` finds: the outcome of the networking calls, the boot nonce, and the
directory's. -/
structure StartEnvironment where
  networking : Status := .ok ()
  boot : BootIncarnation := ⟨1⟩
  created : Bool := true
  readable : Bool := true
  fault : Option AtomicWriteFault := none

/-- The epoch after a load: one past the persisted one where that is not behind. -/
def resumeEpoch (persisted : EpochId) : EpochId :=
  if persisted.valid ∧ c.epoch ≤ persisted then persisted.next else c.epoch

/-- The ledger part of `start`: the persisted epoch is passed and the new one stored. -/
def resume (ledger : EpochLedger) (environment : StartEnvironment) : Outcome Coordinator := do
  let epoch ← match ledger.load environment.readable with
    | .ok persisted => .ok (c.resumeEpoch persisted)
    | .error error => if error.code ≠ .notFound then .error error else .ok c.epoch
  let resumed := { c with epoch, ledger, ledgerOpen := true }
  match resumed.persistEpoch environment.fault with
  | (_, .error error) => .error error
  | (stored, .ok ()) => return stored

/-- `start` on the file found in the configured directory. A failed start leaves the
file as it was. -/
def start (environment : StartEnvironment) (disk : Option Text) : Outcome Coordinator := do
  environment.networking
  let booted := { c with boot := environment.boot }
  if c.config.directory = [] then return booted
  let ledger ← EpochLedger.openIn c.config.directory environment.created disk
  booted.resume ledger environment

/-- The parts of a successful resumption: the ledger was read and the new epoch stored. -/
theorem resume_ok {c c' : Coordinator} {ledger : EpochLedger} {environment : StartEnvironment}
    (h : c.resume ledger environment = .ok c') :
    ∃ persisted, ledger.load environment.readable = .ok persisted ∧
      ({ c with epoch := c.resumeEpoch persisted, ledger, ledgerOpen := true } :
        Coordinator).persistEpoch environment.fault = (c', .ok ()) := by
  unfold resume at h
  cases hl : ledger.load environment.readable with
  | error error =>
    rw [hl] at h
    simp only [EpochLedger.load_error hl, ne_eq, not_false_eq_true, if_true] at h
    cases h
  | ok persisted =>
    rw [hl] at h
    refine ⟨persisted, rfl, ?_⟩
    simp only [bind, Except.bind] at h
    generalize ({ c with epoch := c.resumeEpoch persisted, ledger, ledgerOpen := true } :
      Coordinator).persistEpoch environment.fault = result at h
    obtain ⟨stored, status⟩ := result
    cases status with
    | error error => cases h
    | ok u =>
      obtain rfl := Except.ok.inj h
      rfl

/-- The parts of a successful start. -/
theorem start_ok {c c' : Coordinator} {environment : StartEnvironment} {disk : Option Text}
    (h : c.start environment disk = .ok c') :
    (c.config.directory = [] ∧ c' = { c with boot := environment.boot }) ∨
      ∃ ledger, EpochLedger.openIn c.config.directory environment.created disk = .ok ledger ∧
        ({ c with boot := environment.boot } : Coordinator).resume ledger environment = .ok c' := by
  unfold start at h
  cases hn : environment.networking with
  | error error =>
    rw [hn] at h
    cases h
  | ok u =>
    rw [hn] at h
    simp only [bind, Except.bind] at h
    split_ifs at h with hd
    · exact Or.inl ⟨hd, (Except.ok.inj h).symm⟩
    · cases ho : EpochLedger.openIn c.config.directory environment.created disk with
      | error error =>
        rw [ho] at h
        cases h
      | ok ledger =>
        rw [ho] at h
        exact Or.inr ⟨ledger, rfl, h⟩

end Coordinator

end IncastGovernor
