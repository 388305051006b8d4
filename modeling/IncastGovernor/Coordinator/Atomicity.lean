import IncastGovernor.Coordinator.Restart

/-! Failed ledger writes. An advance of the epoch, and a request that supersedes a holder,
change the coordinator before they write the ledger, and take nothing back when the write
fails: the error is reported, but the epoch that could not be stored is in force, its advance
is counted, and the former holder is revoked. -/

namespace IncastGovernor

open Foundation

namespace Coordinator

variable {c c' : Coordinator}

/-! ### What can be seen -/

/-- The same epoch, lease table and counts. The table has no order of its own. -/
structure SameView (c c' : Coordinator) : Prop where
  epoch : c'.epoch = c.epoch
  leases : c'.leases.entries.Perm c.leases.entries
  statistics : c'.statistics = c.statistics

/-- The epoch in force is the one before, or the ledger holds it. -/
def epochDurable (c c' : Coordinator) : Prop := c'.epoch = c.epoch ∨ c'.ledger.holds c'.epoch

/-- A well-formed request that finds another incarnation with the destination. -/
def supersedes (c : Coordinator) (request : MessageLeaseRequest) : Prop :=
  wellFormed request ∧ ∃ record ∈ c.leases.entries,
    record.claimedBy request ∧ ¬record.heldBy request.boot request.worker

instance (c : Coordinator) (request : MessageLeaseRequest) : Decidable (c.supersedes request) := by
  delta supersedes; infer_instance

/-- The error of a ledger write of the next epoch. -/
def storeError (c : Coordinator) (fault : Option AtomicWriteFault) : Option Error :=
  match (c.ledger.store c.epoch.next fault).1 with
  | .error error => some error
  | .ok _ => none

/-- The error of the ledger write a section makes: in `advance_epoch`, also for a control
request, or in `grant_lease`. -/
def writeError (c : Coordinator) : Section → Option Error
  | .advanceEpoch fault => c.storeError fault
  | .control request fault =>
    if c.tokenAccepted request ∧ request.opcode = .advanceEpoch then c.storeError fault else none
  | .leaseRequest request _ _ fault => if c.supersedes request then c.storeError fault else none
  | _ => none

/-- The operation answers with an error. -/
def reports (c : Coordinator) (error : Error) : Section → Prop
  | .advanceEpoch fault => (c.advanceEpoch fault).2 = .error error
  | .control request fault => (c.handleControl request fault).2 = { detail := error.detail }
  | .leaseRequest request now order fault =>
    (c.grantLease request now order fault).map Prod.snd = some (.error error)
  | _ => False

/-- A failed ledger write is reported and leaves what can be seen, and the epoch that is in
force is durable before it is seen. -/
def failsAtomically (c : Coordinator) (s : Section) : Prop :=
  ∀ c', c.perform s = some c' →
    (∀ error, c.writeError s = some error → c.reports error s ∧ SameView c c') ∧ c.epochDurable c'

/-- The next epoch can be stored: it is not absent, and no step of the write fails. -/
def storable (c : Coordinator) (fault : Option AtomicWriteFault) : Prop :=
  c.epoch.next.valid ∧ fault = none

/-- The section has to store the next epoch, and cannot. -/
def cannotStore (c : Coordinator) : Section → Prop
  | .advanceEpoch fault => ¬c.storable fault
  | .control request fault =>
    c.tokenAccepted request ∧ request.opcode = .advanceEpoch ∧ ¬c.storable fault
  | .leaseRequest request _ _ fault => c.supersedes request ∧ ¬c.storable fault
  | _ => False

/-- All leases are revoked, by a request that stores no epoch, and the ledger does not hold the
next one. -/
def revokesUnstored (c : Coordinator) : Section → Prop
  | .control request _ =>
    c.tokenAccepted request ∧ request.opcode = .revokeAll ∧ ¬c.ledger.holds c.epoch.next
  | _ => False

/-! ### A write that fails -/

theorem next_ne (e : EpochId) : e.next ≠ e := by
  intro h
  have hvalue : e.value + 1 = e.value := congrArg (fun e : EpochId => e.value) h
  have htoNat := congrArg UInt64.toNat hvalue
  rw [UInt64.toNat_add] at htoNat
  have hlt := e.value.toNat_lt
  have hone : (1 : UInt64).toNat = 1 := rfl
  omega

theorem advanceEpoch_status (ho : c.ledgerOpen = true) (fault : Option AtomicWriteFault) :
    (c.advanceEpoch fault).2 = (c.ledger.store c.epoch.next fault).1 := by
  have hopen : c.bumpEpoch.ledgerOpen = true := ho
  unfold advanceEpoch persistEpoch
  rw [if_pos hopen]
  rfl

theorem storeError_eq_some (ho : c.ledgerOpen = true) {fault : Option AtomicWriteFault}
    {error : Error} :
    c.storeError fault = some error ↔ (c.advanceEpoch fault).2 = .error error := by
  rw [advanceEpoch_status ho, storeError]
  cases (c.ledger.store c.epoch.next fault).1 <;> simp

theorem storeError_eq_none (ho : c.ledgerOpen = true) {fault : Option AtomicWriteFault} :
    c.storeError fault = none ↔ (c.advanceEpoch fault).2 = .ok () := by
  rw [advanceEpoch_status ho, storeError]
  cases (c.ledger.store c.epoch.next fault).1 <;> simp

theorem storeError_eq_none_iff (hp : c.ledger.path ≠ []) {fault : Option AtomicWriteFault} :
    c.storeError fault = none ↔ c.storable fault := by
  unfold storeError storable EpochLedger.store
  rw [if_neg hp]
  by_cases hv : c.epoch.next.valid
  · rw [if_neg (not_not.mpr hv)]
    cases fault <;> simp [writeFileAtomic, hv]
  · rw [if_pos hv]
    simp [hv, fail]

theorem writeError_eq_none_iff (hp : c.ledger.path ≠ []) (s : Section) :
    c.writeError s = none ↔ ¬c.cannotStore s := by
  cases s with
  | advanceEpoch fault => exact (storeError_eq_none_iff hp).trans not_not.symm
  | control request fault =>
    unfold writeError cannotStore
    simp only
    split_ifs with haccepted
    · simp [storeError_eq_none_iff hp, haccepted]
    · exact ⟨fun _ hc => haccepted ⟨hc.1, hc.2.1⟩, fun _ => rfl⟩
  | leaseRequest request now order fault =>
    unfold writeError cannotStore
    simp only
    split_ifs with hsupersedes
    · simp [storeError_eq_none_iff hp, hsupersedes]
    · exact ⟨fun _ hc => hsupersedes hc.1, fun _ => rfl⟩
  | _ => exact ⟨fun _ => id, fun _ => rfl⟩

theorem persistEpoch_statistics (c : Coordinator) (fault : Option AtomicWriteFault) :
    (c.persistEpoch fault).1.statistics = c.statistics := by
  unfold persistEpoch
  split_ifs <;> rfl

/-- What a superseding request whose write fails leaves, and answers. -/
theorem grantLease_unpersisted (h : Sound c) (ho : c.ledgerOpen = true)
    {request : MessageLeaseRequest} {now : Timestamp} {order : Enumeration LeaseRecord}
    {fault : Option AtomicWriteFault} (hs : c.supersedes request) {error : Error}
    (he : c.storeError fault = some error) :
    c.grantLease request now order fault =
      some (((c.claimed request now order).advanceEpoch fault).1, .error error) := by
  have hfailed : ((c.claimed request now order).advanceEpoch fault).2 = .error error :=
    (storeError_eq_some (c := c.claimed request now order) ho).mp he
  obtain ⟨hv, record, hm, hcl, hforeign⟩ := hs
  have hby := @grantLease_by c request now order fault h.exclusive
  generalize hresult : c.grantLease request now order fault = result at hby ⊢
  cases hby with
  | refused invalid => exact absurd hv invalid
  | refreshed valid other mem claimed held =>
    exact absurd held (h.foreign_of_foreign hm hcl hforeign mem claimed)
  | unpersisted valid other mem claimed foreign error' failed =>
    rw [hfailed] at failed
    rw [Except.error.inj failed]
  | superseding valid other mem claimed foreign stored =>
    rw [hfailed] at stored
    cases stored
  | fresh valid free => exact absurd hcl (free record hm)

/-- A failed write is reported, and what it was to store is in force all the same: the epoch
has advanced, the advance is counted, and the ledger is as it was. -/
structure Exposes (c : Coordinator) (error : Error) (s : Section) (c' : Coordinator) : Prop where
  reported : c.reports error s
  epoch : c'.epoch = c.epoch.next
  counted : c'.statistics.epochAdvances = c.statistics.epochAdvances + 1
  ledger : c'.ledger = c.ledger

theorem exposes_advanceEpoch (ho : c.ledgerOpen = true) (hp : c.ledger.path ≠ [])
    {fault : Option AtomicWriteFault} {error : Error} (he : c.storeError fault = some error) :
    c.Exposes error (.advanceEpoch fault) (c.advanceEpoch fault).1 := by
  have hfailed := (storeError_eq_some ho).mp he
  refine ⟨hfailed, advanceEpoch_epoch c fault, ?_, ?_⟩
  · show (c.bumpEpoch.persistEpoch fault).1.statistics.epochAdvances = _
    rw [persistEpoch_statistics]
    rfl
  · have hopen : c.bumpEpoch.ledgerOpen = true := ho
    rw [advanceEpoch_status ho] at hfailed
    unfold advanceEpoch persistEpoch
    rw [if_pos hopen]
    rcases EpochLedger.store_spec c.ledger c.epoch.next fault hp with ⟨hok, -⟩ | ⟨-, hl⟩
    · rw [hfailed] at hok
      cases hok
    · exact hl

/-- Every failed ledger write of a section is exposed, and the section ends alive. -/
theorem writeError_exposes (h : Sound c) (ho : c.ledgerOpen = true) (hp : c.ledger.path ≠ [])
    {s : Section} {error : Error} (he : c.writeError s = some error) :
    ∃ c', c.perform s = some c' ∧ c.Exposes error s c' := by
  cases s with
  | advanceEpoch fault => exact ⟨_, rfl, exposes_advanceEpoch ho hp he⟩
  | control request fault =>
    unfold writeError at he
    simp only at he
    split_ifs at he with haccepted
    have hcontrol : c.handleControl request fault =
        ((c.advanceEpoch fault).1, { detail := error.detail }) := by
      unfold handleControl
      rw [if_neg (not_not.mpr haccepted.1), haccepted.2]
      simp only [(storeError_eq_some ho).mp he]
    obtain ⟨-, hepoch, hcounted, hledger⟩ := exposes_advanceEpoch ho hp he
    refine ⟨_, rfl, congrArg Prod.snd hcontrol, ?_, ?_, ?_⟩ <;> rw [hcontrol]
    · exact hepoch
    · exact hcounted
    · exact hledger
  | leaseRequest request now order fault =>
    unfold writeError at he
    simp only at he
    split_ifs at he with hsupersedes
    have hgrant := @grantLease_unpersisted c h ho request now order fault hsupersedes error he
    obtain ⟨-, hepoch, hcounted, hledger⟩ :=
      @exposes_advanceEpoch (c.claimed request now order) ho hp fault error he
    refine ⟨((c.claimed request now order).advanceEpoch fault).1, ?_, ?_, hepoch, hcounted, hledger⟩
    · exact congrArg (Option.map fun result => result.1) hgrant
    · exact congrArg (Option.map Prod.snd) hgrant
  | _ => cases he

/-- The holder that a superseding request finds is revoked, also when the write fails. -/
theorem unpersisted_revokes (h : Sound c) (ho : c.ledgerOpen = true)
    {request : MessageLeaseRequest} {now : Timestamp} {order : Enumeration LeaseRecord}
    {fault : Option AtomicWriteFault} {error : Error}
    (he : c.writeError (.leaseRequest request now order fault) = some error)
    (hs : c.perform (.leaseRequest request now order fault) = some c') :
    ∃ record ∈ c.leases.entries, record.live ∧ record.revoke ∈ c'.leases.entries := by
  unfold writeError at he
  simp only at he
  split_ifs at he with hsupersedes
  have hgrant := @grantLease_unpersisted c h ho request now order fault hsupersedes error he
  obtain ⟨-, record, hm, hcl, hforeign⟩ := hsupersedes
  refine ⟨record, hm, hcl.2, ?_⟩
  obtain ⟨result, hresult, rfl⟩ := Option.map_eq_some_iff.mp hs
  rw [hgrant] at hresult
  obtain rfl := Option.some.inj hresult
  have hrevoked : c.claimRecord request now record = record.revoke := by
    rw [claimRecord, if_pos hcl, if_neg hforeign]
  exact (advanced_entries h.exclusive).symm.subset (hrevoked ▸ List.mem_map_of_mem hm)

/-! ### Which sections are atomic -/

/-- The epoch of a section whose write succeeds is in the ledger, unless RevokeAll advanced it. -/
theorem epochDurable_of_stored (h : Sound c) (ho : c.ledgerOpen = true) (hp : c.ledger.path ≠ [])
    {s : Section} (he : c.writeError s = none) (hr : ¬c.revokesUnstored s)
    (hs : c.perform s = some c') : c.epochDurable c' := by
  rcases perform_epoch h hs with ⟨hadvances, hepoch⟩ | ⟨-, hepoch⟩
  swap
  · exact Or.inl hepoch
  refine Or.inr ?_
  rw [hepoch]
  cases s with
  | advanceEpoch fault =>
    obtain rfl := Option.some.inj hs
    exact advanceEpoch_stored ho hp ((storeError_eq_none ho).mp he)
  | control request fault =>
    obtain rfl := Option.some.inj hs
    have hby := handleControl_by c request fault
    generalize (c.handleControl request fault).1 = next at hby
    cases hby with
    | unchanged other =>
      rcases hadvances.2 with hop | hop
      · exact absurd hop (other hadvances.1).1
      · exact absurd hop (other hadvances.1).2
    | advanced accepted opcode =>
      unfold writeError at he
      simp only [accepted, opcode, and_self, if_true] at he
      exact advanceEpoch_stored ho hp ((storeError_eq_none ho).mp he)
    | revoked accepted opcode =>
      by_contra hn
      exact hr ⟨accepted, opcode, hn⟩
  | leaseRequest request now order fault =>
    have hsupersedes : c.supersedes request := hadvances
    have hstore : c.storeError fault = none := by
      unfold writeError at he
      simp only at he
      rwa [if_pos hsupersedes] at he
    have hok := (storeError_eq_none (c := c.claimed request now order) ho).mp hstore
    have hby := leaseRequest_by h.exclusive hs
    generalize c.granted (.leaseRequest request now order fault) = sent at hby
    obtain ⟨hvalid, record, hm, hcl, hforeign⟩ := hadvances
    have hheld := @advanceEpoch_stored (c.claimed request now order) ho hp fault hok
    cases hby with
    | refused invalid => exact absurd hvalid invalid
    | refreshed valid other mem claimed held =>
      exact absurd held (h.foreign_of_foreign hm hcl hforeign mem claimed)
    | unpersisted valid other mem claimed foreign => exact hheld
    | superseding valid other mem claimed foreign stored room => exact hheld
    | fresh valid free room => exact absurd hcl (free record hm)
  | _ => exact hadvances.elim

/-- A section is atomic exactly when it can store the epoch it has to, and it is no RevokeAll
under an epoch that the ledger lacks. -/
theorem failsAtomically_iff (h : Sound c) (ho : c.ledgerOpen = true) (hp : c.ledger.path ≠ [])
    (s : Section) : c.failsAtomically s ↔ ¬c.cannotStore s ∧ ¬c.revokesUnstored s := by
  rw [← writeError_eq_none_iff hp]
  constructor
  · refine fun hatomic => ⟨Option.eq_none_iff_forall_ne_some.mpr fun error he => ?_, fun hr => ?_⟩
    · obtain ⟨c', hs, hexposes⟩ := writeError_exposes h ho hp he
      have hview := ((hatomic c' hs).1 error he).2
      exact next_ne c.epoch (hexposes.epoch.symm.trans hview.epoch)
    · cases s with
      | control request fault =>
        obtain ⟨haccepted, hop, hlacks⟩ := hr
        have hcontrol : (c.handleControl request fault).1 = c.revokeAll := by
          unfold handleControl
          rw [if_neg (not_not.mpr haccepted), hop]
        rcases (hatomic _ rfl).2 with hepoch | hheld
        · rw [hcontrol] at hepoch
          exact next_ne c.epoch hepoch
        · rw [hcontrol] at hheld
          exact hlacks hheld
      | _ => exact hr
  · rintro ⟨he, hr⟩ c' hs
    refine ⟨fun error herror => ?_, epochDurable_of_stored h ho hp he hr hs⟩
    rw [he] at herror
    cases herror

/-! ### Runs -/

/-- A sound coordinator whose ledger has a path when it is open. -/
structure Steady (c : Coordinator) : Prop where
  sound : Sound c
  path : c.ledgerOpen = true → c.ledger.path ≠ []

theorem Steady.step (h : Steady c) {s : Section} (hs : c.perform s = some c') : Steady c' := by
  have hledger := perform_ledger h.sound hs
  refine ⟨h.sound.step (perform_tableStep h.sound s hs), fun hopen => ?_⟩
  rw [hledger.path]
  exact h.path (hledger.opened ▸ hopen)

theorem steady_of_launch {config : CoordinatorConfig} {environment : StartEnvironment}
    {disk : Option Text} (hl : launch config environment disk = some c) : Steady c := by
  refine ⟨sound_of_started (started_of_launch hl), fun hopen => ?_⟩
  by_cases hd : config.directory = []
  · obtain ⟨environment', disk', hs⟩ := started_of_launch hl
    rcases start_ok hs with ⟨-, rfl⟩ | ⟨ledger, hfound, -⟩
    · cases hopen
    · exact absurd hd (openIn_ok hfound).1
  · exact (launch_ledger hd hl).2.1

theorem steady_run {config : CoordinatorConfig} {environment : StartEnvironment}
    {disk : Option Text} {sections : List Section}
    (hrun : run step (launch config environment disk) sections = some c) : Steady c := by
  refine run_invariant (P := fun o : Option Coordinator => ∀ c, o = some c → Steady c)
    (fun o s ho next hnext => ?_) (fun start hstart => steady_of_launch hstart) sections c hrun
  cases o with
  | none => cases hnext
  | some before => exact (ho before rfl).step hnext

/-- Under every interleaving of sections: every section of a coordinator with an open ledger is
atomic exactly when every one can store the epoch it has to, and no RevokeAll advances to an
epoch the ledger lacks. -/
theorem run_fails_atomically_iff (config : CoordinatorConfig) (environment : StartEnvironment)
    (disk : Option Text) (sections : List Section) :
    (∀ call ∈ calls step (launch config environment disk) sections, ∀ c, call.1 = some c →
        c.ledgerOpen = true → c.failsAtomically call.2) ↔
      ∀ call ∈ calls step (launch config environment disk) sections, ∀ c, call.1 = some c →
        c.ledgerOpen = true → ¬c.cannotStore call.2 ∧ ¬c.revokesUnstored call.2 := by
  have hiff : ∀ call ∈ calls step (launch config environment disk) sections, ∀ c,
      call.1 = some c → c.ledgerOpen = true → (c.failsAtomically call.2 ↔
        ¬c.cannotStore call.2 ∧ ¬c.revokesUnstored call.2) := by
    intro call hcall c hc ho
    obtain ⟨pre, post, -, hstate⟩ := (mem_calls_iff step (t := call.1) (i := call.2)).mp hcall
    have hsteady := steady_run (hstate.symm.trans hc)
    exact failsAtomically_iff hsteady.sound ho (hsteady.path ho) call.2
  constructor
  · exact fun h call hcall c hc ho => (hiff call hcall c hc ho).mp (h call hcall c hc ho)
  · exact fun h call hcall c hc ho => (hiff call hcall c hc ho).mpr (h call hcall c hc ho)

/-- Another incarnation asks while the ledger cannot be written. -/
def unwritableLease : Section :=
  .leaseRequest (sampleRequest 2) ⟨2000⟩ (Enumeration.inOrder LeaseRecord) (some .create)

/-- A coordinator with a ledger after one grant. -/
def ledgeredGrant : Coordinator :=
  (run step (launch World.ledgerConfig {} none) [sampleLease 1 1000]).get (by decide +kernel)

/-- The request is answered with the error, under an advanced epoch. -/
theorem unwritable_ledger_advances_epoch :
    ¬∀ (config : CoordinatorConfig) (environment : StartEnvironment) (disk : Option Text)
      (sections : List Section) (c : Coordinator),
      run step (launch config environment disk) sections = some c → c.ledgerOpen = true →
        ∀ s, c.failsAtomically s := by
  intro h
  have hatomic := h World.ledgerConfig {} none [sampleLease 1 1000] ledgeredGrant
    (Option.some_get _).symm (by decide +kernel) unwritableLease
  obtain ⟨c', hs⟩ := Option.isSome_iff_exists.mp
    (show (ledgeredGrant.perform unwritableLease).isSome by decide +kernel)
  obtain ⟨error, he⟩ := Option.isSome_iff_exists.mp
    (show (ledgeredGrant.writeError unwritableLease).isSome by decide +kernel)
  have hepoch := ((hatomic c' hs).1 error he).2.epoch
  have hadvanced : (ledgeredGrant.perform unwritableLease).map (fun c => c.epoch) =
      some ledgeredGrant.epoch.next := by
    decide +kernel
  rw [hs] at hadvanced
  exact next_ne ledgeredGrant.epoch ((Option.some.inj hadvanced).symm.trans hepoch)

end Coordinator

end IncastGovernor
