import IncastGovernor.Coordinator.Fencing
import IncastGovernor.Foundation.BoundedRun
import IncastGovernor.Worker.Settling

/-! A worker and the coordinator agree. Whatever the other sessions do in between, the grant that
a worker between two calls holds is the one in the coordinator's record of its lease, and the
worker's epoch lies between the epoch of that grant and the coordinator's. A call keeps this: the
reply that is on its way is one that settles to it. -/

namespace IncastGovernor

open Foundation

open Coordinator (Section)

namespace Coordinator

variable {c c' : Coordinator} {log : List MessageLeaseGrant} {s : Section}

/-- A record of the table holds the grant. -/
def records (c : Coordinator) (grant : MessageLeaseGrant) : Prop :=
  ∃ record ∈ c.leases.entries, record.grant = grant

/-- A section sends no grant to the incarnation. -/
def grantsOther (c : Coordinator) (s : Section) (boot : BootIncarnation) (worker : WorkerId) : Prop :=
  ∀ sent, c.granted s = some sent → ¬(sent.boot = boot ∧ sent.worker = worker)

theorem granted_of_operates (h : s.operates = true) : c.granted s = none := by
  cases s <;> first | rfl | cases h

theorem grantsOther_of_none (h : c.granted s = none) {boot : BootIncarnation} {worker : WorkerId} :
    c.grantsOther s boot worker := by
  intro sent hsent
  rw [h] at hsent
  cases hsent

/-- A denied renewal changes nothing, and tells the current epoch. -/
theorem renewLease_denied {renew : MessageLeaseRenew} {now : Timestamp} {denied : MessageLeaseDenied}
    (h : (c.renewLease renew now).2 = .error denied) :
    (c.renewLease renew now).1 = c ∧ denied.currentEpoch = c.epoch := by
  unfold renewLease at h ⊢
  cases hf : c.leases.find renew.lease.value with
  | none =>
    rw [hf] at h
    obtain rfl := Except.error.inj h
    exact ⟨rfl, rfl⟩
  | some record =>
    rw [hf] at h
    simp only at h ⊢
    split_ifs at h ⊢ <;> exact ⟨rfl, by rw [← Except.error.inj h]; rfl⟩

theorem publishDecision_currentEpoch (c : Coordinator) (publish : MessageDecisionPublish)
    (now : Timestamp) : (c.publishDecision publish now).2.currentEpoch = c.epoch := by
  unfold publishDecision
  simp only
  split
  · rfl
  · split <;> rfl

theorem records_step (h : Sound c) (hs : c.perform s = some c') {grant : MessageLeaseGrant}
    (hg : c.records grant) (ho : c.grantsOther s grant.boot grant.worker) : c'.records grant := by
  obtain ⟨a, ha, rfl⟩ := hg
  obtain ⟨b, hb, hab⟩ := ((perform_tableStep h s hs).later h).kept a ha
  refine ⟨b, hb, ?_⟩
  rcases perform_grant h hs hb with hsent | ⟨⟨x, hx, hxb⟩, -⟩
  · exact absurd ⟨hab.boot, hab.worker⟩ (ho _ hsent)
  · have hkey : x.key = a.key :=
      (congrArg (fun grant : MessageLeaseGrant => grant.lease.value) hxb).trans hab.key
    rw [← hxb, KeyedTable.eq_of_key_eq hx ha hkey]

/-- Every lease id is one that was given out. -/
def positive (c : Coordinator) : Prop := ∀ record ∈ c.leases.entries, record.key ≠ 0

theorem positive_step (h : Sound c) (hp : c.positive) (hs : c.perform s = some c') : c'.positive := by
  intro b hb
  rcases ((perform_tableStep h s hs).later h).origin b hb with ⟨a, ha, hab⟩ | hnew
  · rw [hab.key]
    exact hp a ha
  · intro hzero
    have hcount := h.count
    rw [hzero, UInt64.le_iff_toNat_le] at hnew
    have hz : (0 : UInt64).toNat = 0 := rfl
    omega

/-- The record of a grant is the one that its lease id finds. -/
theorem record_of_lease {record : LeaseRecord} (hm : record ∈ c.leases.entries)
    {grant : MessageLeaseGrant} (hg : c.records grant) (hl : record.grant.lease = grant.lease) :
    record.grant = grant := by
  obtain ⟨a, ha, rfl⟩ := hg
  rw [KeyedTable.eq_of_key_eq hm ha (congrArg StrongId.value hl)]

end Coordinator

/-! ### A worker between two calls -/

namespace GovernorWorker

/-- The grant is one to this worker, for its destination. -/
def addressed (w : GovernorWorker) (grant : MessageLeaseGrant) : Prop :=
  grant.boot = w.config.boot ∧ grant.worker = w.config.worker ∧
    grant.destination = w.config.destination

/-- The worker holds no lease, or the grant in the coordinator's record of it; its epoch lies
between that grant's and the coordinator's. -/
structure Synced (c : Coordinator) (w : GovernorWorker) : Prop where
  lease : w.lease = {} ∨ w.addressed w.lease ∧ c.records w.lease
  granted_le : w.lease.epoch.value.toNat ≤ w.epoch.value.toNat
  epoch_le : w.epoch.value.toNat ≤ c.epoch.value.toNat

variable {c c' : Coordinator} {w : GovernorWorker} {s : Section} {log : List MessageLeaseGrant}

theorem Synced.step (h : w.Synced c) (hc : Coordinator.Sound c) (hs : c.perform s = some c')
    (hw : ¬c.wrapsEpoch s) (ho : c.grantsOther s w.config.boot w.config.worker) : w.Synced c' where
  lease := by
    refine h.lease.imp_right ?_
    rintro ⟨haddressed, hrecords⟩
    refine ⟨haddressed, Coordinator.records_step hc hs hrecords ?_⟩
    rw [haddressed.1, haddressed.2.1]
    exact ho
  granted_le := h.granted_le
  epoch_le := h.epoch_le.trans (Coordinator.epoch_le_of_not_wraps hc hs hw)

/-- A worker that learns the coordinator's epoch stays in agreement, fenced or not. -/
theorem Synced.learn (h : w.Synced c) (handshaken fenced : Bool) :
    Synced c { w with epoch := c.epoch, handshaken, fenced } where
  lease := h.lease
  granted_le := h.granted_le.trans h.epoch_le
  epoch_le := le_refl _

/-- So does one that takes a grant of the table. -/
theorem Synced.take {grant : MessageLeaseGrant} (ha : w.addressed grant) (hr : c.records grant)
    (he : grant.epoch.value.toNat ≤ c.epoch.value.toNat) (fenced : Bool) :
    Synced c { w with lease := grant, epoch := grant.epoch, fenced } where
  lease := Or.inr ⟨ha, hr⟩
  granted_le := le_refl _
  epoch_le := he

/-- The record that the lease of a worker names holds the worker's grant. -/
theorem Synced.record (h : w.Synced c) (hp : c.positive) {record : LeaseRecord}
    (hm : record ∈ c.leases.entries) (hk : record.key = w.lease.lease.value) :
    w.addressed w.lease ∧ record.grant = w.lease := by
  rcases h.lease with hnone | ⟨haddressed, hrecords⟩
  · rw [hnone] at hk
    exact absurd hk (hp record hm)
  · exact ⟨haddressed, Coordinator.record_of_lease hm hrecords (StrongId.ext hk)⟩

/-! ### The section of a call -/

/-- A renewal is answered with the worker's own grant, its times moved. -/
theorem Synced.renewed (h : w.Synced c) (hp : c.positive) {now : Timestamp}
    {grant : MessageLeaseGrant} (hr : (c.renewLease w.leaseRenewMessage now).2 = .ok grant) :
    w.addressed grant ∧ grant.epoch = w.lease.epoch := by
  rcases Coordinator.renewLease_cases c w.leaseRenewMessage now with
    ⟨denied, hdenied⟩ | ⟨record, hfind, -, -, -, hgranted⟩
  · rw [hdenied] at hr
    cases hr
  · obtain ⟨hm, hk⟩ := KeyedTable.find_eq_some.mp hfind
    obtain ⟨⟨hboot, hworker, hdestination⟩, hsame⟩ := h.record hp hm hk
    rw [hgranted] at hr
    obtain rfl := Except.ok.inj hr
    rw [← hsame] at hboot hworker hdestination ⊢
    exact ⟨⟨hboot, hworker, hdestination⟩, rfl⟩

/-- The section of a call grants nothing but to its worker. -/
theorem Synced.grants (h : w.Synced c) (hc : Coordinator.Sound c) (hp : c.positive) {input : Input}
    {call : Call} (hs : c.perform (w.dispatched input call) = some c') {sent : MessageLeaseGrant}
    (hg : c.granted (w.dispatched input call) = some sent) : w.addressed sent := by
  cases call with
  | acquireLease =>
    obtain ⟨-, hdestination, hboot, hworker, -⟩ := Coordinator.leased_terms hc hs hg
    exact ⟨hboot, hworker, hdestination⟩
  | renewLease =>
    simp only [dispatched, Coordinator.granted] at hg
    cases hr : (c.renewLease w.leaseRenewMessage input.now).2 with
    | error denied =>
      rw [hr] at hg
      cases hg
    | ok grant =>
      rw [hr] at hg
      obtain rfl := Option.some.inj hg
      exact (h.renewed hp hr).1
  | _ => cases hg

/-- A grant that a call is answered with brings the worker back into agreement. -/
theorem Synced.granted (h : w.Synced c) (hc : Coordinator.Sound c) (ht : Coordinator.Traced c log)
    (hp : c.positive) {input : Input} {call : Call}
    (hs : c.perform (w.dispatched input call) = some c') (hw : ¬c.wrapsEpoch (w.dispatched input call))
    {sent : MessageLeaseGrant} (hg : c.granted (w.dispatched input call) = some sent) :
    (w.granted call sent).Synced c' := by
  have haddressed := h.grants hc hp hs hg
  obtain ⟨record, hm, -, hrecord⟩ := Coordinator.granted_mem hc hs hg
  have hbound := (Coordinator.traced_step hc ht hs hw).record_le hm
  rw [hrecord] at hbound
  cases call <;> exact Synced.take haddressed ⟨record, hm, hrecord⟩ hbound _

/-- Whatever the section of a call is answered with settles the call, in agreement. -/
theorem Synced.served (h : w.Synced c) (hc : Coordinator.Sound c) (ht : Coordinator.Traced c log)
    (hp : c.positive) {input : Input} {call : Call}
    (hs : c.perform (w.dispatched input call) = some c') (hw : ¬c.wrapsEpoch (w.dispatched input call))
    {frame : Frame} (hr : c.replyFrame (w.dispatched input call) = some frame) :
    (w.settle call (.ok frame)).2.failed = false ∧ (w.settle call (.ok frame)).1.Synced c' := by
  cases call with
  | connectAndHandshake =>
    have hnext := h.step hc hs hw (Coordinator.grantsOther_of_none rfl)
    obtain rfl := Option.some.inj hr
    obtain rfl := Option.some.inj hs
    rw [settle_hello]
    exact ⟨rfl, hnext.learn true false⟩
  | acquireLease =>
    obtain ⟨grant, hg, rfl⟩ := Option.map_eq_some_iff.mp hr
    rw [settle_grant w (Or.inl rfl)]
    exact ⟨rfl, h.granted hc ht hp hs hw hg⟩
  | renewLease =>
    obtain rfl := Option.some.inj hs
    simp only [dispatched, Coordinator.replyFrame] at hr
    cases hrenew : (c.renewLease w.leaseRenewMessage input.now).2 with
    | ok grant =>
      rw [hrenew] at hr
      obtain rfl := Option.some.inj hr
      rw [settle_grant w (Or.inr rfl)]
      refine ⟨rfl, @Synced.granted c _ w log h hc ht hp input .renewLease rfl hw grant ?_⟩
      simp [dispatched, Coordinator.granted, hrenew, Except.toOption]
    | error denied =>
      rw [hrenew] at hr
      obtain rfl := Option.some.inj hr
      obtain ⟨hsame, hepoch⟩ := Coordinator.renewLease_denied hrenew
      rw [settle_denied w (Or.inr rfl), hsame, fence, hepoch]
      exact ⟨rfl, h.learn w.handshaken true⟩
  | publish decision =>
    have hnext := h.step hc hs hw (Coordinator.grantsOther_of_none rfl)
    obtain rfl := Option.some.inj hr
    obtain rfl := Option.some.inj hs
    rw [settle_ack]
    refine ⟨rfl, ?_⟩
    unfold acknowledged
    split_ifs
    · rw [fence, Coordinator.publishDecision_currentEpoch, ← Coordinator.publishDecision_epoch]
      exact hnext.learn w.handshaken true
    · exact hnext
  | sendHeartbeat =>
    obtain rfl := Option.some.inj hr
    obtain rfl := Option.some.inj hs
    rw [settle_heartbeat]
    refine ⟨rfl, ?_⟩
    split_ifs
    · exact h.learn w.handshaken true
    · exact h

end GovernorWorker

end IncastGovernor
