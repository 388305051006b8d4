import IncastGovernor.Coordinator.Grants

/-! What a grant says. A request that finds a live lease of its own incarnation is answered
with the stored binding, under the current epoch; a renewal repeats the stored binding under
the stored epoch, whoever of the lease's boot asks and however old the lease is. -/

namespace IncastGovernor

open Foundation

namespace Coordinator

variable {c c' : Coordinator}

/-! ### Renewals -/

section Renewal

variable {renew : MessageLeaseRenew} {now : Timestamp}

/-- A renewal that passes the checks is granted. -/
theorem renewLease_of_checks {record : LeaseRecord}
    (hfind : c.leases.find renew.lease.value = some record) (hlive : record.live)
    (hepoch : renew.epoch = c.epoch) (hboot : record.grant.boot = renew.boot) :
    (c.renewLease renew now).2 = .ok (record.renew now (c.expiry now)).grant := by
  unfold renewLease
  simp [hfind, hlive, hepoch, hboot]

/-- The holder of a lease in force asks under the current epoch. -/
def mayRenew (c : Coordinator) (renew : MessageLeaseRenew) (now : Timestamp) : Prop :=
  ∃ record, c.leases.find renew.lease.value = some record ∧ record.live ∧
    ¬record.grant.expiresAt < now ∧ record.heldBy renew.boot renew.worker ∧ renew.epoch = c.epoch

/-- A renewal is granted to the holder of a lease in force only; any other is denied and
leaves the table as it was. -/
structure RenewsSoundly (c : Coordinator) (renew : MessageLeaseRenew) (now : Timestamp) : Prop where
  granted : ∀ grant, (c.renewLease renew now).2 = .ok grant → c.mayRenew renew now
  denied : ¬c.mayRenew renew now →
    (∃ denied, (c.renewLease renew now).2 = .error denied) ∧
      (c.renewLease renew now).1.leases = c.leases

/-- The renewal names a live lease of its boot under the current epoch, and the lease is
another worker's or expired. -/
def renewsBeyond (c : Coordinator) (renew : MessageLeaseRenew) (now : Timestamp) : Prop :=
  ∃ record, c.leases.find renew.lease.value = some record ∧ record.live ∧
    renew.epoch = c.epoch ∧ record.grant.boot = renew.boot ∧
      (record.grant.worker ≠ renew.worker ∨ record.grant.expiresAt < now)

theorem renewsSoundly_iff (c : Coordinator) (renew : MessageLeaseRenew) (now : Timestamp) :
    c.RenewsSoundly renew now ↔ ¬c.renewsBeyond renew now := by
  constructor
  · rintro h ⟨record, hfind, hlive, hepoch, hboot, hbeyond⟩
    have hgranted := @renewLease_of_checks c renew now record hfind hlive hepoch hboot
    obtain ⟨other, hother, -, hexpiry, hheld, -⟩ := h.granted _ hgranted
    obtain rfl := Option.some.inj (hfind.symm.trans hother)
    rcases hbeyond with hworker | hexpired
    · exact hworker hheld.2
    · exact hexpiry hexpired
  · intro h
    rcases renewLease_cases c renew now with ⟨denied, hr⟩ |
      ⟨record, hfind, hlive, hepoch, hboot, hr⟩
    · refine ⟨fun grant hgrant => ?_, fun _ => ⟨⟨denied, by rw [hr]⟩, by rw [hr]⟩⟩
      rw [hr] at hgrant
      cases hgrant
    · have hmay : c.mayRenew renew now := by
        refine ⟨record, hfind, hlive, fun hexpired => ?_, ⟨hboot, ?_⟩, hepoch⟩
        · exact h ⟨record, hfind, hlive, hepoch, hboot, Or.inr hexpired⟩
        · by_contra hworker
          exact h ⟨record, hfind, hlive, hepoch, hboot, Or.inl hworker⟩
      exact ⟨fun _ _ => hmay, fun hno => absurd hmay hno⟩

end Renewal

/-- Over a run, under every interleaving: every renewal is sound exactly when none is of a
live lease of its boot that is another worker's or expired. -/
theorem run_renewals_sound_iff (config : CoordinatorConfig) (environment : StartEnvironment)
    (disk : Option Text) (sections : List Section) :
    (∀ call ∈ loggedCalls config environment disk sections, ∀ c, call.1.1 = some c →
        ∀ renew now, call.2 = .leaseRenew renew now → c.RenewsSoundly renew now) ↔
      ∀ call ∈ loggedCalls config environment disk sections, ∀ c, call.1.1 = some c →
        ∀ renew now, call.2 = .leaseRenew renew now → ¬c.renewsBeyond renew now := by
  constructor
  · intro h call hcall c hc renew now hs
    exact (renewsSoundly_iff c renew now).mp (h call hcall c hc renew now hs)
  · intro h call hcall c hc renew now hs
    exact (renewsSoundly_iff c renew now).mpr (h call hcall c hc renew now hs)

/-- Another worker's renewal of lease 1, in the name of the holder's boot. -/
def lateRenewal : MessageLeaseRenew :=
  { lease := ⟨1⟩, epoch := ⟨1⟩, boot := ⟨1⟩, worker := ⟨2⟩ }

/-- The coordinator after one grant, to worker 1 and for two seconds. -/
def grantedOnce : Coordinator :=
  (run step (some sampleCoordinator) [sampleLease 1 1000]).get (by decide +kernel)

/-- An expired lease is renewed, for a worker that does not hold it. -/
theorem expired_lease_renewed :
    ¬∀ (config : CoordinatorConfig) (environment : StartEnvironment) (disk : Option Text)
      (sections : List Section) (c : Coordinator),
      run step (launch config environment disk) sections = some c →
        ∀ renew now, c.RenewsSoundly renew now := by
  intro h
  have hsound := h {} {} none [sampleLease 1 1000] grantedOnce (Option.some_get _).symm
    lateRenewal ⟨9000000000⟩
  have hgranted : ((grantedOnce.renewLease lateRenewal ⟨9000000000⟩).2.toOption).isSome := by
    decide +kernel
  cases hr : (grantedOnce.renewLease lateRenewal ⟨9000000000⟩).2 with
  | error denied =>
    rw [hr] at hgranted
    cases hgranted
  | ok grant =>
    obtain ⟨record, hfind, -, -, hheld, -⟩ := hsound.granted grant hr
    have hworker : (grantedOnce.leases.find lateRenewal.lease.value).map
        (fun record => record.grant.worker) = some ⟨1⟩ := by
      decide +kernel
    rw [hfind] at hworker
    have hone : record.grant.worker = ⟨1⟩ := Option.some.inj hworker
    exact absurd (hone.symm.trans hheld.2) (by decide)

/-! ### Faithful grants -/

/-- The fields of a grant that a request determines. -/
structure Answers (request : MessageLeaseRequest) (grant : MessageLeaseGrant) : Prop where
  worker : grant.worker = request.worker
  boot : grant.boot = request.boot
  destination : grant.destination = request.destination
  destinationGeneration : grant.destinationGeneration = request.destinationGeneration
  policy : grant.policy = request.policy
  policyGeneration : grant.policyGeneration = request.policyGeneration
  attempt : grant.attempt = request.attempt

/-- The clock a granting section reads. -/
def readsClock (now : Timestamp) : Section → Prop
  | .leaseRequest _ read _ _ | .leaseRenew _ read => read = now
  | _ => False

/-- A grant is under the current epoch for one lease duration from now, as the table holds
it, and says what the request that it answers asked for. -/
structure GrantsFaithfully (c : Coordinator) (s : Section) (c' : Coordinator)
    (grant : MessageLeaseGrant) : Prop where
  epoch : grant.epoch = c'.epoch
  expiry : ∀ now, readsClock now s →
    grant.expiresAt = ⟨now.nanos + c.config.leaseDuration.nanos⟩
  stored : (c'.leases.find grant.lease.value).map (fun record => record.grant) = some grant
  answers : ∀ request now order fault, s = .leaseRequest request now order fault →
    Answers request grant

/-- The terms of a request that its live record does not follow. -/
def otherTerms (request : MessageLeaseRequest) (record : LeaseRecord) : Prop :=
  ¬(record.grant.destinationGeneration = request.destinationGeneration ∧
    record.grant.policy = request.policy ∧
    record.grant.policyGeneration = request.policyGeneration)

/-- A request repeats one of its incarnation under other terms, or a renewal that passes the
checks is of a lease granted under an earlier epoch. -/
def grantsStale (c : Coordinator) : Section → Prop
  | .leaseRequest request _ _ _ =>
    wellFormed request ∧ ∃ record ∈ c.leases.entries, record.claimedBy request ∧
      record.heldBy request.boot request.worker ∧ otherTerms request record
  | .leaseRenew renew _ =>
    ∃ record, c.leases.find renew.lease.value = some record ∧ record.live ∧
      renew.epoch = c.epoch ∧ record.grant.boot = renew.boot ∧ record.grant.epoch ≠ c.epoch
  | _ => False

section Faithful

variable {request : MessageLeaseRequest} {now : Timestamp} {order : Enumeration LeaseRecord}
  {fault : Option AtomicWriteFault}

/-- A granted lease is stored as it was sent. -/
theorem granted_find (h : Sound c) {s : Section} {grant : MessageLeaseGrant}
    (hs : c.perform s = some c') (hg : c.granted s = some grant) :
    (c'.leases.find grant.lease.value).map (fun record => record.grant) = some grant := by
  obtain ⟨record, hm, -, rfl⟩ := granted_mem h hs hg
  have hfind : c'.leases.find record.grant.lease.value = some record :=
    KeyedTable.find_eq_some.mpr ⟨hm, rfl⟩
  rw [hfind]
  rfl

theorem persistEpoch_config (c : Coordinator) (fault : Option AtomicWriteFault) :
    (c.persistEpoch fault).1.config = c.config := by
  unfold persistEpoch
  split_ifs <;> rfl

/-- The grants that answer a request: of the record it repeats, or a fresh one. -/
theorem leaseRequest_granted (h : Sound c)
    (hs : c.perform (.leaseRequest request now order fault) = some c') {grant : MessageLeaseGrant}
    (hg : c.granted (.leaseRequest request now order fault) = some grant) :
    wellFormed request ∧ grant.epoch = c'.epoch ∧
      (grant.grantedAt = now ∧ grant.expiresAt = c.expiry now) ∧
      ((∃ record ∈ c.leases.entries, record.claimedBy request ∧
          record.heldBy request.boot request.worker ∧
          grant = (record.refresh request.attempt now (c.expiry now) c.epoch).grant) ∨
        (∀ record ∈ c.leases.entries, record.claimedBy request →
          ¬record.heldBy request.boot request.worker) ∧ Answers request grant) := by
  have hby := leaseRequest_by h.exclusive hs
  rw [hg] at hby
  cases hby with
  | refreshed hv record mem hcl hh => exact ⟨hv, rfl, ⟨rfl, rfl⟩, Or.inl ⟨record, mem, hcl, hh, rfl⟩⟩
  | superseding hv record mem hcl hf =>
    have hconfig : ((c.claimed request now order).advanceEpoch fault).1.config = c.config :=
      persistEpoch_config (c.claimed request now order).bumpEpoch fault
    refine ⟨hv, rfl, ⟨rfl, ?_⟩, Or.inr ⟨fun a ha hc => h.foreign_of_foreign mem hcl hf ha hc,
      ⟨rfl, rfl, rfl, rfl, rfl, rfl, rfl⟩⟩⟩
    show Coordinator.expiry _ now = c.expiry now
    unfold expiry
    rw [hconfig]
  | fresh hv hfree =>
    exact ⟨hv, rfl, ⟨rfl, rfl⟩, Or.inr ⟨fun a ha hc => absurd hc (hfree a ha),
      ⟨rfl, rfl, rfl, rfl, rfl, rfl, rfl⟩⟩⟩

/-- A repeated request is granted. -/
theorem granted_of_repeated (h : Sound c) (hv : wellFormed request) {record : LeaseRecord}
    (hm : record ∈ c.leases.entries) (hc : record.claimedBy request)
    (hh : record.heldBy request.boot request.worker) :
    ∃ c' grant, c.perform (.leaseRequest request now order fault) = some c' ∧
      c.granted (.leaseRequest request now order fault) = some grant := by
  have hby := @grantLease_by c request now order fault h.exclusive
  have hforeign : ∀ other ∈ c.leases.entries, other.claimedBy request →
      ¬¬other.heldBy request.boot request.worker := fun other ho hco hno =>
    h.foreign_of_foreign ho hco hno hm hc hh
  simp only [perform, granted]
  generalize c.grantLease request now order fault = result at hby ⊢
  cases hby with
  | refused hinvalid => exact absurd hv hinvalid
  | refreshed => exact ⟨_, _, rfl, rfl⟩
  | unpersisted _ other ho hco hno => exact absurd hno (hforeign other ho hco)
  | superseding _ other ho hco hno => exact absurd hno (hforeign other ho hco)
  | fresh _ hfree => exact absurd hc (hfree record hm)

/-- A request is answered faithfully exactly when it repeats none under other terms. -/
theorem leaseRequest_faithful_iff (h : Sound c) :
    (∀ c' grant, c.perform (.leaseRequest request now order fault) = some c' →
        c.granted (.leaseRequest request now order fault) = some grant →
          GrantsFaithfully c (.leaseRequest request now order fault) c' grant) ↔
      ¬c.grantsStale (.leaseRequest request now order fault) := by
  constructor
  · rintro hf ⟨hv, record, hm, hc, hh, hterms⟩
    obtain ⟨c', grant, hs, hg⟩ := @granted_of_repeated c request now order fault h hv record hm hc hh
    have ha := (hf c' grant hs hg).answers request now order fault rfl
    obtain ⟨-, -, -, ⟨other, ho, hco, hho, rfl⟩ | ⟨hnone, -⟩⟩ := leaseRequest_granted h hs hg
    · have hk := h.exclusive other ho record hm hco.2 hc.2 (hco.1.trans hc.1.symm)
      obtain rfl := KeyedTable.eq_of_key_eq ho hm hk
      exact hterms ⟨ha.destinationGeneration, ha.policy, ha.policyGeneration⟩
    · exact hnone record hm hc hh
  · intro hstale c' grant hs hg
    obtain ⟨hv, hepoch, ⟨-, hexpiry⟩, hgrant⟩ := leaseRequest_granted h hs hg
    refine ⟨hepoch, ?_, granted_find h hs hg, ?_⟩
    · rintro read rfl
      exact hexpiry
    · rintro _ _ _ _ ⟨⟩
      rcases hgrant with ⟨record, hm, hc, hh, rfl⟩ | ⟨-, ha⟩
      · have hterms : ¬otherTerms request record :=
          fun hother => hstale ⟨hv, record, hm, hc, hh, hother⟩
        obtain ⟨hd, hp, hpg⟩ := not_not.mp hterms
        exact ⟨hh.2, hh.1, hc.1, hd, hp, hpg, rfl⟩
      · exact ha

/-- A renewal is granted faithfully exactly when its lease was granted under this epoch. -/
theorem leaseRenew_faithful_iff (h : Sound c) (renew : MessageLeaseRenew) :
    (∀ c' grant, c.perform (.leaseRenew renew now) = some c' →
        c.granted (.leaseRenew renew now) = some grant →
          GrantsFaithfully c (.leaseRenew renew now) c' grant) ↔
      ¬c.grantsStale (.leaseRenew renew now) := by
  constructor
  · rintro hf ⟨record, hfind, hlive, hepoch, hboot, hstale⟩
    rcases renewLease_cases c renew now with ⟨denied, hr⟩ | ⟨other, hother, -, -, -, hr⟩
    · have hgranted := @renewLease_of_checks c renew now record hfind hlive hepoch hboot
      rw [hr] at hgranted
      cases hgranted
    · obtain rfl := Option.some.inj (hfind.symm.trans hother)
      have hg : c.granted (.leaseRenew renew now) =
          some (record.renew now (c.expiry now)).grant := by
        rw [granted, hr]
        rfl
      have he := (hf _ _ rfl hg).epoch
      simp only [hr] at he
      exact hstale he
  · intro hstale c' grant hs hg
    have hstored := granted_find h hs hg
    rcases renewLease_cases c renew now with ⟨denied, hr⟩ |
      ⟨record, hfind, hlive, hepoch, hboot, hr⟩
    · rw [granted, hr] at hg
      cases hg
    · rw [granted, hr] at hg
      obtain rfl := Option.some.inj hg
      refine ⟨?_, ?_, hstored, fun _ _ _ _ hs => by cases hs⟩
      · have hnext := Option.some.inj hs
        rw [hr] at hnext
        rw [← hnext]
        by_contra hne
        exact hstale ⟨record, hfind, hlive, hepoch, hboot, hne⟩
      · rintro read rfl
        rfl

/-- The grants of a section are faithful exactly when it grants nothing stale. -/
theorem grantsFaithfully_iff (h : Sound c) (s : Section) :
    (∀ c' grant, c.perform s = some c' → c.granted s = some grant →
        GrantsFaithfully c s c' grant) ↔ ¬c.grantsStale s := by
  cases s with
  | leaseRequest request now order fault => exact leaseRequest_faithful_iff h
  | leaseRenew renew now => exact leaseRenew_faithful_iff h renew
  | _ =>
    -- the other sections grant nothing
    refine iff_of_true (fun c' grant _ hg => ?_) not_false
    cases hg

end Faithful

/-- Over a run, under every interleaving: every grant is faithful exactly when no section
repeats a request under other terms or renews a lease of an earlier epoch. -/
theorem run_grants_faithful_iff (config : CoordinatorConfig) (environment : StartEnvironment)
    (disk : Option Text) (sections : List Section) :
    (∀ call ∈ loggedCalls config environment disk sections, ∀ c, call.1.1 = some c →
        ∀ c' grant, c.perform call.2 = some c' → c.granted call.2 = some grant →
          GrantsFaithfully c call.2 c' grant) ↔
      ∀ call ∈ loggedCalls config environment disk sections, ∀ c, call.1.1 = some c →
        ¬c.grantsStale call.2 := by
  constructor
  · intro h call hcall c hc
    exact (grantsFaithfully_iff (loggedCalls_invariant hcall c hc).1 call.2).mp (h call hcall c hc)
  · intro h call hcall c hc
    exact (grantsFaithfully_iff (loggedCalls_invariant hcall c hc).1 call.2).mpr (h call hcall c hc)

/-- The sample request again, under policy 1 in its second generation. -/
def repolicied : MessageLeaseRequest :=
  { sampleRequest 1 with policy := ⟨1⟩, policyGeneration := ⟨2⟩ }

/-- A worker that asks again after a policy change is granted the lease under the old one. -/
theorem repeated_request_keeps_terms :
    ¬∀ (config : CoordinatorConfig) (environment : StartEnvironment) (disk : Option Text)
      (sections : List Section) (c : Coordinator),
      run step (launch config environment disk) sections = some c →
        ∀ s c' grant, c.perform s = some c' → c.granted s = some grant →
          GrantsFaithfully c s c' grant := by
  intro h
  have hgranted : ((grantedOnce.granted (.leaseRequest repolicied ⟨2000⟩
      (Enumeration.inOrder LeaseRecord) none)).map fun grant => grant.policyGeneration) =
        some ⟨0⟩ := by
    decide +kernel
  obtain ⟨grant, hg, hzero⟩ := Option.map_eq_some_iff.mp hgranted
  have halive : (grantedOnce.perform (.leaseRequest repolicied ⟨2000⟩
      (Enumeration.inOrder LeaseRecord) none)).isSome := by
    decide +kernel
  obtain ⟨c', hs⟩ := Option.isSome_iff_exists.mp halive
  have hfaithful := h {} {} none [sampleLease 1 1000] grantedOnce (Option.some_get _).symm _ c'
    grant hs hg
  have hanswers := hfaithful.answers repolicied ⟨2000⟩ (Enumeration.inOrder LeaseRecord) none rfl
  exact absurd (hzero.symm.trans hanswers.policyGeneration) (by decide)

end Coordinator

end IncastGovernor
