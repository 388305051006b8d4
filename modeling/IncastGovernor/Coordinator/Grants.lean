import IncastGovernor.Coordinator.Leases

/-! The grants of a run. A log keeps every grant that was sent, the latest first, and a
lease record always holds the latest grant of its lease. An accepted decision names a
live, unexpired lease of its own boot and worker; its destination is not compared, and
its epoch is compared with the coordinator's and not with the lease's. -/

namespace IncastGovernor

open Foundation

/-- The latest grant of a lease. -/
def lastGrant (lease : LeaseId) (log : List MessageLeaseGrant) : Option MessageLeaseGrant :=
  log.find? fun grant => grant.lease = lease

namespace Coordinator

/-- A process, while it lives, with the log of its grants. -/
abbrev Logged := Option Coordinator × List MessageLeaseGrant

def loggedStep (s : Logged) (x : Section) : Logged :=
  match s.1 with
  | none => s
  | some c => (c.perform x, (c.granted x).toList ++ s.2)

/-- A coordinator brought up by `start`; none when it fails. -/
def launch (config : CoordinatorConfig) (environment : StartEnvironment) (disk : Option Text) :
    Option Coordinator :=
  ((create config).start environment disk).toOption

/-- The sections of a run, each with the process and the log it met. -/
def loggedCalls (config : CoordinatorConfig) (environment : StartEnvironment)
    (disk : Option Text) (sections : List Section) : List (Logged × Section) :=
  calls loggedStep (launch config environment disk, []) sections

variable {c c' : Coordinator} {log : List MessageLeaseGrant}

theorem started_of_launch {config : CoordinatorConfig} {environment : StartEnvironment}
    {disk : Option Text} (h : launch config environment disk = some c) : Started config c := by
  unfold launch at h
  cases hs : (create config).start environment disk with
  | error error =>
    rw [hs] at h
    cases h
  | ok started =>
    rw [hs] at h
    obtain rfl := Option.some.inj h
    exact ⟨environment, disk, hs⟩

/-! ### The grant of a record -/

section Grant

variable {request : MessageLeaseRequest} {now : Timestamp} {order : Enumeration LeaseRecord}
  {fault : Option AtomicWriteFault}

/-- A record holds the grant that was sent, or one of the table, and then none was sent for
its lease. -/
def grantFrom (c : Coordinator) (sent : Option MessageLeaseGrant) (b : LeaseRecord) : Prop :=
  sent = some b.grant ∨
    (∃ a ∈ c.leases.entries, a.grant = b.grant) ∧
      ∀ grant, sent = some grant → grant.lease ≠ b.grant.lease

theorem grantFrom_of_unsent {a b : LeaseRecord} (ha : a ∈ c.leases.entries)
    (hab : a.grant = b.grant) : c.grantFrom none b :=
  Or.inr ⟨⟨a, ha, hab⟩, nofun⟩

/-- A record of the table is left as it was by a grant of another lease. -/
theorem grantFrom_of_other {a : LeaseRecord} (ha : a ∈ c.leases.entries)
    {grant : MessageLeaseGrant} (hne : grant.lease.value ≠ a.key) :
    c.grantFrom (some grant) a := by
  refine Or.inr ⟨⟨a, ha, rfl⟩, fun sent hs heq => hne ?_⟩
  obtain rfl := Option.some.inj hs
  exact congrArg StrongId.value heq

/-- The loop keeps the grants of a table without a live lease of the requester. -/
theorem claimRecord_grant {a : LeaseRecord}
    (h : a.claimedBy request → ¬a.heldBy request.boot request.worker) :
    (c.claimRecord request now a).grant = a.grant := by
  unfold claimRecord
  split_ifs with hc hh
  · exact absurd hh (h hc)
  · rfl
  · rfl

/-- The record of an entered lease holds the grant; the others keep theirs and have
another id. -/
theorem entered_grant {start : Coordinator} (h : Sound c)
    (hl : start.leases.entries.Perm (c.leases.entries.map (c.claimRecord request now)))
    (hn : start.nextLease = c.nextLease)
    (hfree : ∀ a ∈ c.leases.entries, a.claimedBy request →
      ¬a.heldBy request.boot request.worker)
    {b : LeaseRecord} (hb : b ∈ (start.entered request now).leases.entries) :
    c.grantFrom (some (start.freshGrant request now)) b := by
  rw [entered_entries h hl hn, List.mem_append, List.mem_singleton] at hb
  rcases hb with hb | rfl
  · have hkey := fresh_key h hl hn b hb
    obtain ⟨a, ha, rfl⟩ := List.mem_map.mp (hl.subset hb)
    refine Or.inr ⟨⟨a, ha, (claimRecord_grant (hfree a ha)).symm⟩, fun grant hg heq => ?_⟩
    obtain rfl := Option.some.inj hg
    exact hkey (congrArg StrongId.value heq).symm
  · exact Or.inl rfl

theorem publishRecord_grant (c : Coordinator) (publish : MessageDecisionPublish) (now : Timestamp)
    (a : LeaseRecord) : (c.publishRecord publish now a).grant = a.grant := by
  unfold publishRecord
  split_ifs <;> rfl

theorem handleControl_mem {request : ControlRequest} {b : LeaseRecord}
    (h : b ∈ (c.handleControl request fault).1.leases.entries) :
    ∃ a ∈ c.leases.entries, a.grant = b.grant := by
  have hby := handleControl_by c request fault
  generalize (c.handleControl request fault).1 = next at hby h
  cases hby with
  | unchanged other => exact ⟨b, h, rfl⟩
  | advanced accepted opcode =>
    rw [(advanceEpoch_leases c fault).1] at h
    exact ⟨b, h, rfl⟩
  | revoked accepted opcode =>
    obtain ⟨a, ha, rfl⟩ := (KeyedTable.mem_mapEntries (h := LeaseRecord.revoke_key)).mp h
    exact ⟨a, ha, rfl⟩

theorem leaseRequest_grant (h : Sound c)
    (hs : c.perform (.leaseRequest request now order fault) = some c') {b : LeaseRecord}
    (hb : b ∈ c'.leases.entries) :
    c.grantFrom (c.granted (.leaseRequest request now order fault)) b := by
  have hby := leaseRequest_by h.exclusive hs
  generalize c.granted (.leaseRequest request now order fault) = sent at hby ⊢
  have hclaimed := @claimed_entries c request now order h.exclusive
  have hadvanced := @advanced_entries c request now order fault h.exclusive
  cases hby with
  | refused => exact grantFrom_of_unsent hb rfl
  | refreshed hv record mem hcl hh =>
    obtain ⟨a, ha, rfl⟩ := List.mem_map.mp (hclaimed.subset hb)
    by_cases hca : a.claimedBy request
    · -- the only live lease of the destination
      have hk := h.exclusive a ha record mem hca.2 hcl.2 (hca.1.trans hcl.1.symm)
      obtain rfl := KeyedTable.eq_of_key_eq ha mem hk
      rw [claimRecord, if_pos hcl, if_pos hh]
      exact Or.inl rfl
    · rw [claimRecord, if_neg hca]
      refine grantFrom_of_other ha fun hk => hca ?_
      rw [← KeyedTable.eq_of_key_eq mem ha hk]
      exact hcl
  | unpersisted hv record mem hcl hf =>
    obtain ⟨a, ha, rfl⟩ := List.mem_map.mp (hadvanced.subset hb)
    exact grantFrom_of_unsent ha
      (claimRecord_grant (h.foreign_of_foreign mem hcl hf ha)).symm
  | superseding hv record mem hcl hf =>
    exact entered_grant h hadvanced (advanceEpoch_leases (c.claimed request now order) fault).2
      (fun a ha => h.foreign_of_foreign mem hcl hf ha) hb
  | fresh hv hfree =>
    exact entered_grant h hclaimed rfl (fun a ha hc => absurd hc (hfree a ha)) hb

theorem leaseRenew_grant {renew : MessageLeaseRenew}
    (hs : c.perform (.leaseRenew renew now) = some c') {b : LeaseRecord}
    (hb : b ∈ c'.leases.entries) : c.grantFrom (c.granted (.leaseRenew renew now)) b := by
  obtain rfl := Option.some.inj hs
  simp only [granted]
  rcases renewLease_cases c renew now with ⟨denied, hr⟩ | ⟨record, hfind, -, -, -, hr⟩
  · rw [hr] at hb ⊢
    exact grantFrom_of_unsent hb rfl
  · obtain ⟨hmem, hkey⟩ := KeyedTable.find_eq_some.mp hfind
    rw [hr] at hb ⊢
    obtain ⟨a, ha, rfl⟩ :=
      (KeyedTable.mem_modify (h := fun r => r.renew_key now (c.expiry now))).mp hb
    by_cases hka : a.key = renew.lease.value
    · obtain rfl := KeyedTable.eq_of_key_eq ha hmem (hka.trans hkey.symm)
      rw [if_pos hka]
      exact Or.inl rfl
    · rw [if_neg hka]
      exact grantFrom_of_other ha fun hk => hka (hk.symm.trans hkey)

/-- After a section a record holds the grant the section sent, or the one it held, and
then the section sent none for its lease. -/
theorem perform_grant (h : Sound c) {s : Section} (hs : c.perform s = some c') {b : LeaseRecord}
    (hb : b ∈ c'.leases.entries) : c.grantFrom (c.granted s) b := by
  cases s with
  | leaseRequest request now order fault => exact leaseRequest_grant h hs hb
  | leaseRenew renew now => exact leaseRenew_grant hs hb
  | decisionPublish publish now =>
    obtain rfl := Option.some.inj hs
    obtain ⟨a, ha, rfl⟩ := publishDecision_mem.mp hb
    refine grantFrom_of_unsent ha ?_
    split_ifs
    · exact (publishRecord_grant c publish now a).symm
    · rfl
  | control request fault =>
    obtain rfl := Option.some.inj hs
    obtain ⟨a, ha, hab⟩ := handleControl_mem hb
    exact grantFrom_of_unsent ha hab
  | advanceEpoch fault =>
    obtain rfl := Option.some.inj hs
    refine grantFrom_of_unsent (a := b) ?_ rfl
    rw [← (advanceEpoch_leases c fault).1]
    exact hb
  | _ =>
    obtain rfl := Option.some.inj hs
    exact grantFrom_of_unsent hb rfl

end Grant

/-- Every record holds the latest grant of its lease. -/
def recorded (c : Coordinator) (log : List MessageLeaseGrant) : Prop :=
  ∀ record ∈ c.leases.entries, lastGrant record.grant.lease log = some record.grant

theorem recorded_step (h : Sound c) (hr : recorded c log) {s : Section}
    (hs : c.perform s = some c') : recorded c' ((c.granted s).toList ++ log) := by
  intro b hb
  rcases perform_grant h hs hb with hg | ⟨⟨a, ha, hab⟩, hother⟩
  · rw [hg, Option.toList_some, List.singleton_append, lastGrant, List.find?_cons_of_pos (by simp)]
  · have hlast := hr a ha
    rw [hab] at hlast
    cases hg : c.granted s with
    | none => exact hlast
    | some grant =>
      rw [Option.toList_some, List.singleton_append, lastGrant,
        List.find?_cons_of_neg (by simpa using hother grant hg)]
      exact hlast

/-- Every section of a run meets a sound process whose records are in the log. -/
theorem loggedCalls_invariant {config : CoordinatorConfig} {environment : StartEnvironment}
    {disk : Option Text} {sections : List Section} {call : Logged × Section}
    (h : call ∈ loggedCalls config environment disk sections) :
    ∀ c, call.1.1 = some c → Sound c ∧ recorded c call.1.2 := by
  refine calls_invariant (P := fun s : Logged => ∀ c, s.1 = some c → Sound c ∧ recorded c s.2)
    (fun s x hs c' hc' => ?_) (fun c hc => ?_) h
  · obtain ⟨process, log⟩ := s
    cases process with
    | none => cases hc'
    | some c =>
      obtain ⟨hsound, hrec⟩ := hs c rfl
      have hp : c.perform x = some c' := hc'
      exact ⟨hsound.step (perform_tableStep hsound x hp), recorded_step hsound hrec hp⟩
  · have hstart := started_of_launch hc
    refine ⟨sound_of_started hstart, fun record hm => ?_⟩
    obtain ⟨environment', disk', hs⟩ := hstart
    rw [(start_leases hs).1] at hm
    cases hm

/-! ### Accepted decisions -/

theorem publishRefusal_eq_none {publish : MessageDecisionPublish} {record : LeaseRecord}
    {now : Timestamp} :
    c.publishRefusal publish record now = none ↔
      record.live ∧ publish.epoch = c.epoch ∧ record.grant.boot = publish.boot ∧
        record.grant.worker = publish.worker ∧ ¬record.grant.expiresAt < now ∧
          ¬publish.sequence ≤ record.leaseSequence := by
  simp only [publishRefusal, ite_some_eq_none_iff, not_not, ne_eq, and_true]

/-- The checks of a decision pass. -/
def acceptsUnder (c : Coordinator) (publish : MessageDecisionPublish) (now : Timestamp)
    (record : LeaseRecord) : Prop :=
  c.leases.find publish.lease.value = some record ∧ c.publishRefusal publish record now = none

theorem accepted_iff {publish : MessageDecisionPublish} {now : Timestamp} :
    (c.publishDecision publish now).2.accepted = true ↔
      ∃ record, c.acceptsUnder publish now record := by
  unfold publishDecision acceptsUnder
  simp only
  cases hf : c.leases.find publish.lease.value with
  | none => simp
  | some record =>
    cases hr : c.publishRefusal publish record now with
    | none => simp [hr]
    | some refusal => simp [hr]

/-- A decision agrees with the latest grant of the lease it names: the lease is live and
unexpired, and the boot, the worker, the destination and the epoch are those of the
grant, the epoch the current one. -/
structure AgreesWithGrant (c : Coordinator) (log : List MessageLeaseGrant)
    (publish : MessageDecisionPublish) (now : Timestamp) : Prop where
  lease : ∃ record, c.leases.find publish.lease.value = some record ∧ record.live ∧
    ¬record.grant.expiresAt < now
  grant : ∃ grant, lastGrant publish.lease log = some grant ∧ publish.boot = grant.boot ∧
    publish.worker = grant.worker ∧ publish.destination = grant.destination ∧
      publish.epoch = c.epoch ∧ publish.epoch = grant.epoch

/-- A decision passes the checks but names another destination than its lease is for, or
comes after the epoch moved past the one the lease was granted under. -/
def decidesOffGrant (c : Coordinator) (publish : MessageDecisionPublish) (now : Timestamp) : Prop :=
  ∃ record, c.acceptsUnder publish now record ∧
    (publish.destination ≠ record.grant.destination ∨ record.grant.epoch ≠ c.epoch)

/-- An accepted decision agrees with its grant exactly when it is not off the grant. -/
theorem accepted_agrees_iff (hr : recorded c log) {publish : MessageDecisionPublish}
    {now : Timestamp} :
    ((c.publishDecision publish now).2.accepted = true → AgreesWithGrant c log publish now) ↔
      ¬c.decidesOffGrant publish now := by
  constructor
  · rintro h ⟨record, haccept, hoff⟩
    obtain ⟨hm, hk⟩ := KeyedTable.find_eq_some.mp haccept.1
    have hlease : publish.lease = record.grant.lease := StrongId.ext hk.symm
    obtain ⟨grant, hgrant, -, -, hdest, hcurrent, hepoch⟩ :=
      (h (accepted_iff.mpr ⟨record, haccept⟩)).grant
    rw [hlease, hr record hm] at hgrant
    obtain rfl := Option.some.inj hgrant
    rcases hoff with hoff | hoff
    · exact hoff hdest
    · exact hoff (hepoch.symm.trans hcurrent)
  · intro h haccepted
    obtain ⟨record, haccept⟩ := accepted_iff.mp haccepted
    obtain ⟨hlive, hepoch, hboot, hworker, hexpiry, -⟩ := publishRefusal_eq_none.mp haccept.2
    obtain ⟨hm, hk⟩ := KeyedTable.find_eq_some.mp haccept.1
    have hlease : publish.lease = record.grant.lease := StrongId.ext hk.symm
    have hoff : ¬(publish.destination ≠ record.grant.destination ∨ record.grant.epoch ≠ c.epoch) :=
      fun hoff => h ⟨record, haccept, hoff⟩
    push Not at hoff
    refine ⟨⟨record, haccept.1, hlive, hexpiry⟩, record.grant, ?_, hboot.symm, hworker.symm,
      hoff.1, hepoch, hepoch.trans hoff.2.symm⟩
    rw [hlease]
    exact hr record hm

/-- Over a run, under every interleaving: every accepted decision agrees with the latest
grant of its lease exactly when none is off its grant. -/
theorem run_decisions_agree_iff (config : CoordinatorConfig) (environment : StartEnvironment)
    (disk : Option Text) (sections : List Section) :
    (∀ call ∈ loggedCalls config environment disk sections, ∀ c, call.1.1 = some c →
        ∀ publish now, call.2 = .decisionPublish publish now →
          (c.publishDecision publish now).2.accepted = true →
            AgreesWithGrant c call.1.2 publish now) ↔
      ∀ call ∈ loggedCalls config environment disk sections, ∀ c, call.1.1 = some c →
        ∀ publish now, call.2 = .decisionPublish publish now → ¬c.decidesOffGrant publish now := by
  constructor
  · intro h call hcall c hc publish now hs
    exact (accepted_agrees_iff (loggedCalls_invariant hcall c hc).2).mp (h call hcall c hc publish now hs)
  · intro h call hcall c hc publish now hs
    exact (accepted_agrees_iff (loggedCalls_invariant hcall c hc).2).mpr
      (h call hcall c hc publish now hs)

/-- A decision of the holder of lease 1 under an epoch it learned after its grant. -/
def stalePublish : MessageDecisionPublish :=
  { lease := ⟨1⟩, epoch := ⟨2⟩, boot := ⟨1⟩, worker := ⟨1⟩, destination := ⟨7⟩, sequence := 1 }

/-- A lease is granted, the epoch advances, and the holder decides under the new epoch. -/
def staleGrantRun : List Section :=
  [sampleLease 1 1000, .advanceEpoch none, .decisionPublish stalePublish ⟨1500⟩]

/-- The process and the log that the decision of that run meets. -/
def advancedOnce : Logged :=
  run loggedStep (launch {} {} none, []) [sampleLease 1 1000, .advanceEpoch none]

def advancedCoordinator : Coordinator := advancedOnce.1.get (by decide +kernel)

/-- The decision is accepted although its lease was granted under the epoch before. -/
theorem stale_grant_decision_accepted :
    ¬∀ call ∈ loggedCalls {} {} none staleGrantRun, ∀ c, call.1.1 = some c →
      ∀ publish now, call.2 = .decisionPublish publish now →
        (c.publishDecision publish now).2.accepted = true →
          AgreesWithGrant c call.1.2 publish now := by
  intro h
  have hmem : (advancedOnce, Section.decisionPublish stalePublish ⟨1500⟩) ∈
      loggedCalls {} {} none staleGrantRun :=
    (mem_calls_iff loggedStep).mpr ⟨[sampleLease 1 1000, .advanceEpoch none], [], rfl, rfl⟩
  have haccepted : (advancedCoordinator.publishDecision stalePublish ⟨1500⟩).2.accepted = true := by
    decide +kernel
  have hlast : (lastGrant stalePublish.lease advancedOnce.2).map (fun grant => grant.epoch) =
      some ⟨1⟩ := by
    decide +kernel
  obtain ⟨grant, hgrant, -, -, -, -, hepoch⟩ :=
    (h _ hmem advancedCoordinator (Option.some_get _).symm _ _ rfl haccepted).grant
  rw [hgrant] at hlast
  have hone : grant.epoch = ⟨1⟩ := Option.some.inj hlast
  rw [hone] at hepoch
  exact absurd hepoch (by decide)

end Coordinator

end IncastGovernor
