import IncastGovernor.Coordinator.Renewal
import IncastGovernor.Foundation.Unwinding

/-! What the messages of others do to a lease. A decision or a renewal of another incarnation
changes nothing of the lease's record, except a decision under another epoch than the current,
which revokes it, and a renewal in the name of its boot, which extends it. Without these the
holder's decisions are answered as if the others had sent nothing. -/

namespace IncastGovernor

open Foundation

namespace Coordinator

variable {c c' d : Coordinator}

/-! ### One message -/

/-- A decision or a renewal of another incarnation. -/
def foreignTo (boot : BootIncarnation) (worker : WorkerId) : Section → Prop
  | .decisionPublish publish _ => ¬(publish.boot = boot ∧ publish.worker = worker)
  | .leaseRenew renew _ => ¬(renew.boot = boot ∧ renew.worker = worker)
  | _ => False

/-- The message names the lease of a live record, and is a decision under another epoch or a
renewal that passes the checks at a later time. -/
def disturbs (c : Coordinator) (record : LeaseRecord) : Section → Prop
  | .decisionPublish publish _ =>
    publish.lease = record.grant.lease ∧ record.live ∧ publish.epoch ≠ c.epoch
  | .leaseRenew renew now =>
    renew.lease = record.grant.lease ∧ record.live ∧ renew.epoch = c.epoch ∧
      renew.boot = record.grant.boot ∧ now ≠ record.grant.grantedAt
  | _ => False

/-- Every grant expires one lease duration after it was made. -/
def timed (c : Coordinator) : Prop :=
  ∀ record ∈ c.leases.entries, record.grant.expiresAt = c.expiry record.grant.grantedAt

/-- A foreign decision leaves the record alone or revokes it. -/
theorem publishRecord_foreign {publish : MessageDecisionPublish} {now : Timestamp}
    {record : LeaseRecord}
    (hf : ¬(publish.boot = record.grant.boot ∧ publish.worker = record.grant.worker)) :
    c.publishRecord publish now record =
      if record.live ∧ publish.epoch ≠ c.epoch then record.revoke else record := by
  unfold publishRecord
  have hrefused : ¬c.publishRefusal publish record now = none := by
    intro hnone
    obtain ⟨-, -, hboot, hworker, -, -⟩ := publishRefusal_eq_none.mp hnone
    exact hf ⟨hboot.symm, hworker.symm⟩
  rw [if_neg hrefused]

theorem renew_eq_self_iff {record : LeaseRecord} {now : Timestamp}
    (ht : record.grant.expiresAt = c.expiry record.grant.grantedAt) :
    record.renew now (c.expiry now) = record ↔ now = record.grant.grantedAt := by
  constructor
  · intro h
    exact congrArg (fun r : LeaseRecord => r.grant.grantedAt) h
  · rintro rfl
    rw [← ht]
    rfl

/-- A record stays in the table exactly when what becomes of it is itself. -/
theorem mem_modify_iff {t : LeaseTable} {k : UInt64} {f : LeaseRecord → LeaseRecord}
    {hk : ∀ a, (f a).key = a.key} {record : LeaseRecord} (hm : record ∈ t.entries) :
    record ∈ (t.modify k f hk).entries ↔ (record.key = k → f record = record) := by
  rw [KeyedTable.mem_modify]
  constructor
  · rintro ⟨a, ha, hfa⟩ hrecord
    have hkey : a.key = record.key := by
      rw [← hfa]
      split_ifs
      · exact (hk a).symm
      · rfl
    obtain rfl := KeyedTable.eq_of_key_eq ha hm hkey
    rw [if_pos hrecord] at hfa
    exact hfa
  · intro h
    refine ⟨record, hm, ?_⟩
    split_ifs with hrecord
    · exact h hrecord
    · rfl

/-- A foreign message leaves the record as it was exactly when it does not disturb it. -/
theorem foreign_keeps_iff (ht : c.timed) {record : LeaseRecord} (hm : record ∈ c.leases.entries)
    {s : Section} (hf : foreignTo record.grant.boot record.grant.worker s)
    (hs : c.perform s = some c') : record ∈ c'.leases.entries ↔ ¬c.disturbs record s := by
  cases s with
  | decisionPublish publish now =>
    obtain rfl := Option.some.inj hs
    have hmodify : record ∈ (c.publishDecision publish now).1.leases.entries ↔
        (record.key = publish.lease.value → c.publishRecord publish now record = record) := by
      rw [publishDecision_mem]
      exact (KeyedTable.mem_modify (h := c.publishRecord_key publish now)).symm.trans
        (mem_modify_iff hm)
    rw [hmodify, publishRecord_foreign hf]
    constructor
    · rintro h ⟨hlease, hlive, hepoch⟩
      have hsame := h (congrArg StrongId.value hlease).symm
      rw [if_pos ⟨hlive, hepoch⟩] at hsame
      exact record.not_live_revoke (hsame ▸ hlive)
    · intro h hkey
      exact if_neg fun hc => h ⟨StrongId.ext hkey.symm, hc.1, hc.2⟩
  | leaseRenew renew now =>
    obtain rfl := Option.some.inj hs
    rcases renewLease_cases c renew now with ⟨denied, hr⟩ |
      ⟨other, hfind, hlive, hepoch, hboot, hr⟩
    · rw [hr]
      refine ⟨fun _ => ?_, fun _ => hm⟩
      rintro ⟨hlease, hlive, hepoch, hboot, -⟩
      have hfind : c.leases.find renew.lease.value = some record :=
        KeyedTable.find_eq_some.mpr ⟨hm, by rw [hlease]; rfl⟩
      have hgranted := @renewLease_of_checks c renew now record hfind hlive hepoch hboot.symm
      rw [hr] at hgranted
      cases hgranted
    · obtain ⟨ho, hkey⟩ := KeyedTable.find_eq_some.mp hfind
      rw [hr, mem_modify_iff hm, renew_eq_self_iff (ht record hm)]
      constructor
      · rintro h ⟨hlease, -, -, -, hnow⟩
        exact hnow (h (congrArg StrongId.value hlease).symm)
      · intro h hk
        by_contra hnow
        obtain rfl := KeyedTable.eq_of_key_eq ho hm (hkey.trans hk.symm)
        exact h ⟨StrongId.ext hk.symm, hlive, hepoch, hboot.symm, hnow⟩
  | _ => exact hf.elim

/-! ### The age of a grant -/

theorem perform_config {s : Section} (h : Sound c) (hs : c.perform s = some c') :
    c'.config = c.config := by
  cases s with
  | leaseRequest request now order fault =>
    have hby := leaseRequest_by h.exclusive hs
    generalize c.granted (.leaseRequest request now order fault) = sent at hby
    have hadvanced : ((c.claimed request now order).advanceEpoch fault).1.config = c.config :=
      persistEpoch_config (c.claimed request now order).bumpEpoch fault
    cases hby with
    | unpersisted => exact hadvanced
    | superseding => exact hadvanced
    | _ => rfl
  | leaseRenew renew now =>
    obtain rfl := Option.some.inj hs
    rcases renewLease_cases c renew now with ⟨denied, hr⟩ | ⟨record, -, -, -, -, hr⟩ <;> rw [hr]
  | decisionPublish publish now =>
    obtain rfl := Option.some.inj hs
    unfold publishDecision
    simp only
    split
    · rfl
    · split <;> rfl
  | control request fault =>
    obtain rfl := Option.some.inj hs
    have hby := handleControl_by c request fault
    generalize (c.handleControl request fault).1 = next at hby
    cases hby with
    | advanced => exact persistEpoch_config c.bumpEpoch fault
    | _ => rfl
  | advanceEpoch fault =>
    obtain rfl := Option.some.inj hs
    exact persistEpoch_config c.bumpEpoch fault
  | _ =>
    obtain rfl := Option.some.inj hs
    rfl

theorem granted_timed (h : Sound c) {s : Section} {grant : MessageLeaseGrant}
    (hs : c.perform s = some c') (hg : c.granted s = some grant) :
    grant.expiresAt = c.expiry grant.grantedAt := by
  cases s with
  | leaseRequest request now order fault =>
    obtain ⟨-, -, ⟨rfl, hexpiry⟩, -⟩ := leaseRequest_granted h hs hg
    exact hexpiry
  | leaseRenew renew now =>
    rcases renewLease_cases c renew now with ⟨denied, hr⟩ | ⟨record, -, -, -, -, hr⟩
    · rw [granted, hr] at hg
      cases hg
    · rw [granted, hr] at hg
      obtain rfl := Option.some.inj hg
      rfl
  | _ => cases hg

theorem timed_step (h : Sound c) (ht : c.timed) {s : Section} (hs : c.perform s = some c') :
    c'.timed := by
  intro b hb
  have hexpiry : ∀ now, c'.expiry now = c.expiry now := by
    intro now
    unfold expiry
    rw [perform_config h hs]
  rw [hexpiry]
  rcases perform_grant h hs hb with hg | ⟨⟨a, ha, hab⟩, -⟩
  · exact granted_timed h hs hg
  · rw [← hab]
    exact ht a ha

/-- Every process of a run is sound and its grants are timed. -/
theorem run_timed {config : CoordinatorConfig} {environment : StartEnvironment}
    {disk : Option Text} {sections : List Section}
    (h : run step (launch config environment disk) sections = some c) : Sound c ∧ c.timed := by
  refine run_invariant (P := fun o : Option Coordinator => ∀ c, o = some c → Sound c ∧ c.timed)
    (fun o s ho next hnext => ?_) (fun start hstart => ?_) sections c h
  · cases o with
    | none => cases hnext
    | some before =>
      obtain ⟨hsound, ht⟩ := ho before rfl
      exact ⟨hsound.step (perform_tableStep hsound s hnext), timed_step hsound ht hnext⟩
  · have hs := started_of_launch hstart
    refine ⟨sound_of_started hs, ?_⟩
    obtain ⟨environment', disk', hs⟩ := hs
    intro record hm
    rw [(start_leases hs).1] at hm
    cases hm

/-! ### The counts set aside -/

/-- The coordinator without its counts. -/
def uncounted (c : Coordinator) : Coordinator := { c with statistics := {} }

theorem claimRecords_uncounted (c : Coordinator) (request : MessageLeaseRequest) (now : Timestamp)
    (records : List LeaseRecord) :
    c.uncounted.claimRecords request now records = c.claimRecords request now records := by
  induction records with
  | nil => rfl
  | cons record rest ih =>
    unfold claimRecords
    rw [ih]
    rfl

theorem claimed_uncounted (c : Coordinator) (request : MessageLeaseRequest) (now : Timestamp)
    (order : Enumeration LeaseRecord) :
    c.uncounted.claimed request now order = (c.claimed request now order).uncounted := by
  unfold claimed claimTable KeyedTable.withEntries
  simp only [claimRecords_uncounted]
  rfl

theorem advanceEpoch_uncounted (c : Coordinator) (fault : Option AtomicWriteFault) :
    (c.uncounted.advanceEpoch fault).1.uncounted = (c.advanceEpoch fault).1.uncounted ∧
      (c.uncounted.advanceEpoch fault).2 = (c.advanceEpoch fault).2 := by
  unfold advanceEpoch persistEpoch
  have hopen : c.uncounted.bumpEpoch.ledgerOpen = c.bumpEpoch.ledgerOpen := rfl
  rw [hopen]
  split_ifs <;> exact ⟨rfl, rfl⟩

theorem issueLease_uncounted (c : Coordinator) (request : MessageLeaseRequest) (now : Timestamp) :
    (c.uncounted.issueLease request now).map (fun result => result.1.uncounted) =
      (c.issueLease request now).map fun result => result.1.uncounted := by
  unfold issueLease
  have hleases : c.uncounted.leases = c.leases := rfl
  rw [hleases]
  split_ifs <;> rfl

/-- Coordinators that differ in their counts only issue the same lease. -/
theorem issueLease_of_uncounted (h : c.uncounted = d.uncounted) (request : MessageLeaseRequest)
    (now : Timestamp) :
    (c.issueLease request now).map (fun result => result.1.uncounted) =
      (d.issueLease request now).map fun result => result.1.uncounted := by
  rw [← issueLease_uncounted c, h, issueLease_uncounted d]

theorem grantLease_uncounted (c : Coordinator) (request : MessageLeaseRequest) (now : Timestamp)
    (order : Enumeration LeaseRecord) (fault : Option AtomicWriteFault) :
    (c.uncounted.grantLease request now order fault).map (fun result => result.1.uncounted) =
      (c.grantLease request now order fault).map fun result => result.1.uncounted := by
  have hleases : c.uncounted.leases = c.leases := rfl
  obtain ⟨hadvanced, hstatus⟩ := advanceEpoch_uncounted (c.claimed request now order) fault
  unfold grantLease
  rw [hleases, claimRecords_uncounted, claimed_uncounted]
  split_ifs
  · rfl
  · simp only
    cases (c.claimRecords request now (order.order c.leases.entries)).2.2 with
    | some grant => rfl
    | none =>
      simp only
      split_ifs
      · rw [hstatus]
        cases ((c.claimed request now order).advanceEpoch fault).2 with
        | error error => exact congrArg some hadvanced
        | ok u => exact issueLease_of_uncounted hadvanced request now
      · exact issueLease_uncounted (c.claimed request now order) request now
  · rfl

theorem renewLease_uncounted (c : Coordinator) (renew : MessageLeaseRenew) (now : Timestamp) :
    (c.uncounted.renewLease renew now).1.uncounted = (c.renewLease renew now).1.uncounted := by
  have hleases : c.uncounted.leases = c.leases := rfl
  have hepoch : c.uncounted.epoch = c.epoch := rfl
  unfold renewLease
  rw [hleases, hepoch]
  cases c.leases.find renew.lease.value with
  | none => rfl
  | some record =>
    simp only
    split_ifs <;> rfl

theorem publishDecision_uncounted (c : Coordinator) (publish : MessageDecisionPublish)
    (now : Timestamp) :
    (c.uncounted.publishDecision publish now).1.uncounted =
        (c.publishDecision publish now).1.uncounted ∧
      (c.uncounted.publishDecision publish now).2 = (c.publishDecision publish now).2 := by
  have hleases : c.uncounted.leases = c.leases := rfl
  unfold publishDecision
  rw [hleases]
  cases c.leases.find publish.lease.value with
  | none => exact ⟨rfl, rfl⟩
  | some record =>
    have hrefusal : c.uncounted.publishRefusal publish record now =
        c.publishRefusal publish record now := rfl
    simp only [hrefusal]
    cases c.publishRefusal publish record now <;> exact ⟨rfl, rfl⟩

theorem handleControl_uncounted (c : Coordinator) (request : ControlRequest)
    (fault : Option AtomicWriteFault) :
    (c.uncounted.handleControl request fault).1.uncounted =
      (c.handleControl request fault).1.uncounted := by
  have htoken : c.uncounted.tokenAccepted request = c.tokenAccepted request := rfl
  unfold handleControl
  by_cases ht : c.tokenAccepted request
  · rw [if_neg (by rw [htoken]; exact not_not.mpr ht), if_neg (not_not.mpr ht)]
    cases request.opcode with
    | advanceEpoch => exact (advanceEpoch_uncounted c fault).1
    | _ => rfl
  · rw [if_pos (by rw [htoken]; exact ht), if_pos ht]
    rfl

/-- A section reads no count. -/
theorem perform_uncounted (c : Coordinator) (s : Section) :
    (c.uncounted.perform s).map uncounted = (c.perform s).map uncounted := by
  cases s with
  | leaseRequest request now order fault =>
    simp only [perform, Option.map_map]
    exact grantLease_uncounted c request now order fault
  | leaseRenew renew now => exact congrArg some (renewLease_uncounted c renew now)
  | decisionPublish publish now => exact congrArg some (publishDecision_uncounted c publish now).1
  | control request fault => exact congrArg some (handleControl_uncounted c request fault)
  | advanceEpoch fault => exact congrArg some (advanceEpoch_uncounted c fault).1
  | _ => rfl

/-! ### Runs with and without the messages of others -/

/-- The sections that only count. -/
def counts : Section → Prop
  | .connected | .frameIn | .frameOut | .countDenied => True
  | _ => False

/-- The lease a decision or a renewal names. -/
def namedLease : Section → Option LeaseId
  | .decisionPublish publish _ => some publish.lease
  | .leaseRenew renew _ => some renew.lease
  | _ => none

/-- A foreign message that names the lease of a grant, or a count that goes with one. -/
def setAside (grant : MessageLeaseGrant) (s : Section) : Prop :=
  (foreignTo grant.boot grant.worker s ∧ namedLease s = some grant.lease) ∨ counts s

/-- The answers to the decisions of the holder of a grant. -/
def holderAnswers (grant : MessageLeaseGrant) : Option Coordinator → Section →
    List MessageDecisionAck
  | some c, .decisionPublish publish now =>
    if publish.lease = grant.lease ∧ publish.boot = grant.boot ∧ publish.worker = grant.worker then
      [(c.publishDecision publish now).2]
    else []
  | _, _ => []

/-- The section, if the process lives, does not disturb the record of the grant's lease. -/
def leavesAlone (grant : MessageLeaseGrant) (o : Option Coordinator) (s : Section) : Prop :=
  ∀ c ∈ o, ∀ record ∈ c.leases.entries, record.grant.lease = grant.lease → ¬c.disturbs record s

/-- A reachable process that keeps the lease of a grant for its holder. -/
structure KeepsHolder (grant : MessageLeaseGrant) (c : Coordinator) : Prop where
  sound : Sound c
  timed : c.timed
  held : ∃ record ∈ c.leases.entries, record.grant.lease = grant.lease ∧
    record.heldBy grant.boot grant.worker

/-- Processes that the holder of a grant cannot tell apart. -/
structure Alike (grant : MessageLeaseGrant) (o o' : Option Coordinator) : Prop where
  uncounted : o.map uncounted = o'.map uncounted
  keeps : ∀ c, o = some c → KeepsHolder grant c

section Alike

variable {grant : MessageLeaseGrant} {o o' : Option Coordinator} {s : Section}

theorem KeepsHolder.step (h : KeepsHolder grant c) (hs : c.perform s = some c') :
    KeepsHolder grant c' := by
  have ht := perform_tableStep h.sound s hs
  obtain ⟨a, ha, hlease, hheld⟩ := h.held
  obtain ⟨b, hb, hab⟩ := (ht.later h.sound).kept a ha
  exact ⟨h.sound.step ht, timed_step h.sound h.timed hs, b, hb,
    (StrongId.ext hab.key : b.grant.lease = a.grant.lease).trans hlease,
    hab.boot.trans hheld.1, hab.worker.trans hheld.2⟩

/-- Alike processes stay alike under any section, and answer the holder alike. -/
theorem Alike.step (h : Alike grant o o') (s : Section) :
    Alike grant (step o s) (step o' s) ∧ holderAnswers grant o s = holderAnswers grant o' s := by
  have hsame := h.uncounted
  cases o with
  | none =>
    obtain rfl := Option.map_eq_none_iff.mp hsame.symm
    exact ⟨⟨rfl, nofun⟩, rfl⟩
  | some c =>
    obtain ⟨d, rfl, hd⟩ := Option.map_eq_some_iff.mp hsame.symm
    refine ⟨⟨?_, fun next hnext => (h.keeps c rfl).step hnext⟩, ?_⟩
    · show (c.perform s).map Coordinator.uncounted = (d.perform s).map Coordinator.uncounted
      rw [← perform_uncounted c, ← hd, perform_uncounted d]
    · cases s with
      | decisionPublish publish now =>
        have hanswer := (publishDecision_uncounted c publish now).2
        rw [← hd, (publishDecision_uncounted d publish now).2] at hanswer
        simp only [holderAnswers, hanswer]
      | _ => rfl

/-- The records under the id of a lease are its own. -/
theorem eq_of_named {record a : LeaseRecord} (hm : record ∈ c.leases.entries)
    (ha : a ∈ c.leases.entries) {lease : LeaseId} (hk : a.key = lease.value)
    (hn : lease = record.grant.lease) : a = record :=
  KeyedTable.eq_of_key_eq ha hm (hk.trans (congrArg StrongId.value hn))

/-- A foreign decision that disturbs nothing changes the counts only. -/
theorem decision_uncounted {record : LeaseRecord} (hm : record ∈ c.leases.entries)
    {publish : MessageDecisionPublish} {now : Timestamp} (hn : publish.lease = record.grant.lease)
    (hf : ¬(publish.boot = record.grant.boot ∧ publish.worker = record.grant.worker))
    (hquiet : ¬c.disturbs record (.decisionPublish publish now)) :
    (c.publishDecision publish now).1.uncounted = c.uncounted := by
  have hself : ∀ a ∈ c.leases.entries, a.key = publish.lease.value →
      c.publishRecord publish now a = a := by
    intro a ha hk
    rw [eq_of_named hm ha hk hn, publishRecord_foreign hf]
    exact if_neg fun hc => hquiet ⟨hn, hc.1, hc.2⟩
  have htable := KeyedTable.modify_eq_self (h := c.publishRecord_key publish now) hself
  unfold publishDecision
  simp only [htable]
  cases c.leases.find publish.lease.value with
  | none => rfl
  | some found =>
    simp only
    split <;> rfl

/-- A renewal that disturbs nothing changes the counts only. -/
theorem renewal_uncounted (ht : c.timed) {record : LeaseRecord} (hm : record ∈ c.leases.entries)
    {renew : MessageLeaseRenew} {now : Timestamp} (hn : renew.lease = record.grant.lease)
    (hquiet : ¬c.disturbs record (.leaseRenew renew now)) :
    (c.renewLease renew now).1.uncounted = c.uncounted := by
  rcases renewLease_cases c renew now with ⟨denied, hr⟩ |
    ⟨found, hfind, hlive, hepoch, hfound, hr⟩
  · rw [hr]
  · obtain ⟨hmem, hkey⟩ := KeyedTable.find_eq_some.mp hfind
    obtain rfl := eq_of_named hm hmem hkey hn
    have hnow : now = found.grant.grantedAt := by
      by_contra hne
      exact hquiet ⟨hn, hlive, hepoch, hfound.symm, hne⟩
    have hself : ∀ a ∈ c.leases.entries, a.key = renew.lease.value →
        a.renew now (c.expiry now) = a := by
      intro a ha hk
      rw [eq_of_named hmem ha hk hn]
      exact (renew_eq_self_iff (ht found hmem)).mpr hnow
    rw [hr, KeyedTable.modify_eq_self hself]
    rfl

theorem foreign_uncounted (h : KeepsHolder grant c) (hf : foreignTo grant.boot grant.worker s)
    (hn : namedLease s = some grant.lease) (hleft : leavesAlone grant (some c) s) :
    (c.perform s).map uncounted = some c.uncounted := by
  obtain ⟨record, hm, hlease, hboot, hworker⟩ := h.held
  have hquiet := hleft c rfl record hm hlease
  cases s with
  | decisionPublish publish now =>
    have hpublish : publish.lease = record.grant.lease := (Option.some.inj hn).trans hlease.symm
    rw [← hboot, ← hworker] at hf
    exact congrArg some (decision_uncounted hm hpublish hf hquiet)
  | leaseRenew renew now =>
    have hrenew : renew.lease = record.grant.lease := (Option.some.inj hn).trans hlease.symm
    exact congrArg some (renewal_uncounted h.timed hm hrenew hquiet)
  | _ => exact hf.elim

theorem Alike.setAside (h : Alike grant o o') (hs : setAside grant s)
    (hleft : leavesAlone grant o s) : Alike grant (Coordinator.step o s) o' := by
  have hsame := h.uncounted
  cases o with
  | none =>
    obtain rfl := Option.map_eq_none_iff.mp hsame.symm
    exact ⟨rfl, nofun⟩
  | some c =>
    refine ⟨?_, fun next hnext => (h.keeps c rfl).step hnext⟩
    rw [← hsame]
    rcases hs with ⟨hf, hn⟩ | hcounts
    · exact foreign_uncounted (h.keeps c rfl) hf hn hleft
    · cases s with
      | connected | frameIn | frameOut | countDenied => rfl
      | _ => exact hcounts.elim

theorem holderAnswers_setAside (hs : setAside grant s) : holderAnswers grant o s = [] := by
  cases o with
  | none => rfl
  | some c =>
    cases s with
    | decisionPublish publish now =>
      rcases hs with ⟨hf, -⟩ | hcounts
      · exact if_neg fun hc => hf ⟨hc.2.1, hc.2.2⟩
      · exact hcounts.elim
    | _ => rfl

end Alike

instance (boot : BootIncarnation) (worker : WorkerId) : DecidablePred (foreignTo boot worker)
  | .decisionPublish publish _ =>
    inferInstanceAs (Decidable ¬(publish.boot = boot ∧ publish.worker = worker))
  | .leaseRenew renew _ => inferInstanceAs (Decidable ¬(renew.boot = boot ∧ renew.worker = worker))
  | .connected | .frameIn | .frameOut | .hello _ | .leaseRequest _ _ _ _ | .denyLease _
  | .countDenied | .heartbeat | .control _ _ | .answerControl _ | .advanceEpoch _
  | .stop => isFalse id

instance : DecidablePred counts
  | .connected | .frameIn | .frameOut | .countDenied => isTrue trivial
  | .hello _ | .leaseRequest _ _ _ _ | .denyLease _ | .leaseRenew _ _ | .decisionPublish _ _
  | .heartbeat | .control _ _ | .answerControl _ | .advanceEpoch _ | .stop => isFalse id

instance (grant : MessageLeaseGrant) : DecidablePred (setAside grant) := fun s =>
  inferInstanceAs (Decidable
    ((foreignTo grant.boot grant.worker s ∧ namedLease s = some grant.lease) ∨ counts s))

/-- The messages of others are set aside by an unwinding. -/
theorem unwinding (grant : MessageLeaseGrant) :
    Unwinding step (holderAnswers grant) (Alike grant) (setAside grant) (leavesAlone grant) where
  consistent _ _ s h _ := h.step s
  local_ _ _ _ h hs hleft := h.setAside hs hleft
  silent _ _ hs := holderAnswers_setAside hs

/-- The sections of two runs that differ in foreign messages naming the lease of a grant, and
in counts. -/
def agreeBut (grant : MessageLeaseGrant) (xs ys : List Section) : Prop :=
  (xs.filter fun s => ¬setAside grant s) = ys.filter fun s => ¬setAside grant s

/-- In every reachable coordinator a foreign message leaves a lease record as it was exactly
when it does not disturb it, and where none does, the holder's decisions are answered the
same whatever the others send. -/
theorem run_without_interference {config : CoordinatorConfig} {environment : StartEnvironment}
    {disk : Option Text} {sections : List Section}
    (hrun : run step (launch config environment disk) sections = some c) {record : LeaseRecord}
    (hm : record ∈ c.leases.entries) :
    (∀ s c', foreignTo record.grant.boot record.grant.worker s → c.perform s = some c' →
      (record ∈ c'.leases.entries ↔ ¬c.disturbs record s)) ∧
    ∀ xs ys, agreeBut record.grant xs ys →
      (∀ call ∈ calls step (some c) xs, setAside record.grant call.2 →
        leavesAlone record.grant call.1 call.2) →
      (∀ call ∈ calls step (some c) ys, setAside record.grant call.2 →
        leavesAlone record.grant call.1 call.2) →
      shown step (holderAnswers record.grant) (some c) xs =
        shown step (holderAnswers record.grant) (some c) ys := by
  obtain ⟨hsound, ht⟩ := run_timed hrun
  refine ⟨fun s c' hf hs => foreign_keeps_iff ht hm hf hs, fun xs ys hagree hxs hys => ?_⟩
  have halike : Alike record.grant (some c) (some c) := by
    refine ⟨rfl, fun next hnext => ?_⟩
    obtain rfl := Option.some.inj hnext
    exact ⟨hsound, ht, record, hm, rfl, rfl, rfl⟩
  exact (unwinding record.grant).shown_eq halike hagree hxs hys

/-- The record of lease 1 after its grant. -/
def heldOnce : LeaseRecord := (grantedOnce.leases.find 1).get (by decide +kernel)

theorem heldOnce_mem : heldOnce ∈ grantedOnce.leases.entries :=
  (KeyedTable.find_eq_some.mp (Option.some_get _).symm).1

/-- A decision of another worker under the current epoch. -/
def otherDecision : Section :=
  .decisionPublish { stalePublish with worker := ⟨2⟩, epoch := ⟨1⟩ } ⟨1500⟩

/-- The coordinator after that decision. -/
def answeredOther : Coordinator := (grantedOnce.perform otherDecision).get (by decide +kernel)

/-- A decision of another worker under the current epoch changes nothing of the record. -/
theorem run_without_interference_once : heldOnce ∈ answeredOther.leases.entries := by
  have hrun : run step (launch {} {} none) [sampleLease 1 1000] = some grantedOnce :=
    (Option.some_get _).symm
  refine ((run_without_interference hrun heldOnce_mem).1 otherDecision answeredOther ?_
    (Option.some_get _).symm).mpr ?_
  · decide +kernel
  · rintro ⟨-, -, hepoch⟩
    exact hepoch (by decide +kernel)

/-- A decision of another incarnation, under an epoch that is not the current, revokes the
lease. -/
theorem foreign_decision_revokes :
    ¬∀ (config : CoordinatorConfig) (environment : StartEnvironment) (disk : Option Text)
      (sections : List Section) (c : Coordinator),
      run step (launch config environment disk) sections = some c →
        ∀ record ∈ c.leases.entries, ∀ s c', foreignTo record.grant.boot record.grant.worker s →
          c.perform s = some c' → record ∈ c'.leases.entries := by
  intro h
  have hrun : run step (launch {} {} none) [sampleLease 1 1000] = some grantedOnce :=
    (Option.some_get _).symm
  let foreign : Section := .decisionPublish { stalePublish with boot := ⟨2⟩, worker := ⟨2⟩ } ⟨1500⟩
  have hforeign : foreignTo heldOnce.grant.boot heldOnce.grant.worker foreign := by decide +kernel
  have hkept := h {} {} none _ grantedOnce hrun heldOnce heldOnce_mem foreign _ hforeign rfl
  have hquiet := (foreign_keeps_iff (run_timed hrun).2 heldOnce_mem hforeign rfl).mp hkept
  exact hquiet ⟨by decide +kernel, by decide +kernel, by decide +kernel⟩

end Coordinator

end IncastGovernor
