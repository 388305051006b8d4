import IncastGovernor.Coordinator.Grants

/-! Epochs as fencing tokens. A destination passes from one incarnation to another with
an advance of the epoch where the first one's lease is found live. A lease that was
revoked before, without an advance, is not found: the next incarnation is then granted
the destination under the same epoch. -/

namespace IncastGovernor

open Foundation

/-- The grants of one destination under one epoch are one incarnation's. -/
def epochsFence (log : List MessageLeaseGrant) : Prop :=
  ∀ a ∈ log, ∀ b ∈ log, a.destination = b.destination → a.epoch = b.epoch →
    a.boot = b.boot ∧ a.worker = b.worker

instance (log : List MessageLeaseGrant) : Decidable (epochsFence log) := by
  delta epochsFence; infer_instance

namespace Coordinator

variable {c c' : Coordinator} {log : List MessageLeaseGrant}

/-! ### The epoch of a section -/

/-- The section advances the epoch. -/
def advances (c : Coordinator) : Section → Prop
  | .leaseRequest request _ _ _ =>
    wellFormed request ∧ ∃ record ∈ c.leases.entries,
      record.claimedBy request ∧ ¬record.heldBy request.boot request.worker
  | .control request _ =>
    c.tokenAccepted request ∧ (request.opcode = .advanceEpoch ∨ request.opcode = .revokeAll)
  | .advanceEpoch _ => True
  | _ => False

theorem persistEpoch_epoch (c : Coordinator) (fault : Option AtomicWriteFault) :
    (c.persistEpoch fault).1.epoch = c.epoch := by
  unfold persistEpoch
  split_ifs <;> rfl

theorem advanceEpoch_epoch (c : Coordinator) (fault : Option AtomicWriteFault) :
    (c.advanceEpoch fault).1.epoch = c.epoch.next :=
  persistEpoch_epoch c.bumpEpoch fault

theorem publishDecision_epoch (c : Coordinator) (publish : MessageDecisionPublish)
    (now : Timestamp) : (c.publishDecision publish now).1.epoch = c.epoch := by
  unfold publishDecision
  simp only
  split
  · rfl
  · split <;> rfl

theorem leaseRequest_epoch (h : Sound c) {request : MessageLeaseRequest} {now : Timestamp}
    {order : Enumeration LeaseRecord} {fault : Option AtomicWriteFault}
    (hs : c.perform (.leaseRequest request now order fault) = some c') :
    (c.advances (.leaseRequest request now order fault) ∧ c'.epoch = c.epoch.next) ∨
      (¬c.advances (.leaseRequest request now order fault) ∧ c'.epoch = c.epoch) := by
  have hby := leaseRequest_by h.exclusive hs
  generalize c.granted (.leaseRequest request now order fault) = sent at hby
  have hadvanced := advanceEpoch_epoch (c.claimed request now order) fault
  cases hby with
  | refused hinv => exact Or.inr ⟨fun ha => hinv ha.1, rfl⟩
  | refreshed hv record mem hcl hh =>
    refine Or.inr ⟨?_, rfl⟩
    rintro ⟨-, other, hm, hco, hf⟩
    exact h.foreign_of_foreign hm hco hf mem hcl hh
  | unpersisted hv record mem hcl hf => exact Or.inl ⟨⟨hv, record, mem, hcl, hf⟩, hadvanced⟩
  | superseding hv record mem hcl hf => exact Or.inl ⟨⟨hv, record, mem, hcl, hf⟩, hadvanced⟩
  | fresh hv hfree =>
    refine Or.inr ⟨?_, rfl⟩
    rintro ⟨-, other, hm, hco, -⟩
    exact hfree other hm hco

/-- A section moves the epoch by one step or not at all. -/
theorem perform_epoch (h : Sound c) {s : Section} (hs : c.perform s = some c') :
    (c.advances s ∧ c'.epoch = c.epoch.next) ∨ (¬c.advances s ∧ c'.epoch = c.epoch) := by
  cases s with
  | leaseRequest request now order fault => exact leaseRequest_epoch h hs
  | leaseRenew renew now =>
    obtain rfl := Option.some.inj hs
    refine Or.inr ⟨id, ?_⟩
    rcases renewLease_cases c renew now with ⟨denied, hr⟩ | ⟨record, -, -, -, -, hr⟩ <;> rw [hr]
  | decisionPublish publish now =>
    obtain rfl := Option.some.inj hs
    exact Or.inr ⟨id, publishDecision_epoch c publish now⟩
  | control request fault =>
    obtain rfl := Option.some.inj hs
    have hby := handleControl_by c request fault
    generalize (c.handleControl request fault).1 = next at hby
    cases hby with
    | unchanged other =>
      refine Or.inr ⟨?_, rfl⟩
      rintro ⟨ha, hop | hop⟩
      · exact (other ha).1 hop
      · exact (other ha).2 hop
    | advanced accepted opcode =>
      exact Or.inl ⟨⟨accepted, Or.inl opcode⟩, advanceEpoch_epoch c fault⟩
    | revoked accepted opcode => exact Or.inl ⟨⟨accepted, Or.inr opcode⟩, rfl⟩
  | advanceEpoch fault =>
    obtain rfl := Option.some.inj hs
    exact Or.inl ⟨trivial, advanceEpoch_epoch c fault⟩
  | _ =>
    obtain rfl := Option.some.inj hs
    exact Or.inr ⟨id, rfl⟩

/-! ### The grant of a section -/

/-- Two grants of one lease to its holder, under one epoch. -/
structure SameTerms (a b : MessageLeaseGrant) : Prop where
  lease : a.lease = b.lease
  destination : a.destination = b.destination
  boot : a.boot = b.boot
  worker : a.worker = b.worker
  epoch : a.epoch = b.epoch

/-- A grant repeats the terms of a record it renews, or answers a request under the
epoch of the coordinator after the section. -/
inductive GrantsBy (c : Coordinator) (s : Section) (c' : Coordinator) (grant : MessageLeaseGrant) :
    Prop
  | renewed (record : LeaseRecord) (mem : record ∈ c.leases.entries)
      (same : SameTerms grant record.grant)
  | leased (request : MessageLeaseRequest) (now : Timestamp) (order : Enumeration LeaseRecord)
      (fault : Option AtomicWriteFault) (section_eq : s = .leaseRequest request now order fault)
      (valid : wellFormed request) (destination : grant.destination = request.destination)
      (boot : grant.boot = request.boot) (worker : grant.worker = request.worker)
      (epoch : grant.epoch = c'.epoch)

/-- A grant that answers a request is the requester's, under the epoch of the
coordinator after the section. -/
theorem leased_terms (h : Sound c) {request : MessageLeaseRequest} {now : Timestamp}
    {order : Enumeration LeaseRecord} {fault : Option AtomicWriteFault}
    (hs : c.perform (.leaseRequest request now order fault) = some c') {grant : MessageLeaseGrant}
    (hg : c.granted (.leaseRequest request now order fault) = some grant) :
    wellFormed request ∧ grant.destination = request.destination ∧ grant.boot = request.boot ∧
      grant.worker = request.worker ∧ grant.epoch = c'.epoch := by
  have hby := leaseRequest_by h.exclusive hs
  rw [hg] at hby
  cases hby with
  | refreshed hv record mem hcl hh => exact ⟨hv, hcl.1, hh.1, hh.2, rfl⟩
  | superseding hv => exact ⟨hv, rfl, rfl, rfl, rfl⟩
  | fresh hv => exact ⟨hv, rfl, rfl, rfl, rfl⟩

theorem granted_by (h : Sound c) {s : Section} (hs : c.perform s = some c')
    {grant : MessageLeaseGrant} (hg : c.granted s = some grant) : GrantsBy c s c' grant := by
  cases s with
  | leaseRequest request now order fault =>
    obtain ⟨hv, hd, hb, hw, he⟩ := leased_terms h hs hg
    exact GrantsBy.leased request now order fault rfl hv hd hb hw he
  | leaseRenew renew now =>
    simp only [granted] at hg
    rcases renewLease_cases c renew now with ⟨denied, hr⟩ | ⟨record, hfind, -, -, -, hr⟩
    · rw [hr] at hg
      cases hg
    · rw [hr] at hg
      obtain rfl := Option.some.inj hg
      exact GrantsBy.renewed record (KeyedTable.find_eq_some.mp hfind).1 ⟨rfl, rfl, rfl, rfl, rfl⟩
  | _ => cases hg

/-! ### The condition -/

/-- A request finds a revoked lease of its destination that another incarnation was
granted under the current epoch, and no live one it would supersede. -/
def regrants (c : Coordinator) : Section → Prop
  | .leaseRequest request _ _ _ =>
    wellFormed request ∧
      (∀ record ∈ c.leases.entries, record.claimedBy request →
        record.heldBy request.boot request.worker) ∧
      ∃ record ∈ c.leases.entries, ¬record.live ∧ record.grant.destination = request.destination ∧
        ¬record.heldBy request.boot request.worker ∧ record.grant.epoch = c.epoch
  | _ => False

/-- The epoch runs around. -/
def wrapsEpoch (c : Coordinator) (s : Section) : Prop := c.advances s ∧ c.epoch.value = u64Max

instance (c : Coordinator) : DecidablePred c.advances
  | .leaseRequest request _ _ _ => inferInstanceAs (Decidable (wellFormed request ∧
      ∃ record ∈ c.leases.entries, record.claimedBy request ∧
        ¬record.heldBy request.boot request.worker))
  | .control request _ => inferInstanceAs (Decidable (c.tokenAccepted request ∧
      (request.opcode = .advanceEpoch ∨ request.opcode = .revokeAll)))
  | .advanceEpoch _ => isTrue trivial
  | .connected | .frameIn | .frameOut | .hello _ | .denyLease _ | .leaseRenew _ _ | .countDenied
  | .decisionPublish _ _ | .heartbeat | .answerControl _ | .stop => isFalse id

instance (c : Coordinator) : DecidablePred c.regrants
  | .leaseRequest request _ _ _ => inferInstanceAs (Decidable (wellFormed request ∧
      (∀ record ∈ c.leases.entries, record.claimedBy request →
        record.heldBy request.boot request.worker) ∧
      ∃ record ∈ c.leases.entries, ¬record.live ∧
        record.grant.destination = request.destination ∧
        ¬record.heldBy request.boot request.worker ∧ record.grant.epoch = c.epoch))
  | .connected | .frameIn | .frameOut | .hello _ | .denyLease _ | .leaseRenew _ _ | .countDenied
  | .decisionPublish _ _ | .heartbeat | .control _ _ | .answerControl _ | .advanceEpoch _
  | .stop => isFalse id

instance (c : Coordinator) : DecidablePred c.wrapsEpoch := fun s =>
  inferInstanceAs (Decidable (c.advances s ∧ c.epoch.value = u64Max))

theorem next_toNat {e : EpochId} (h : e.value ≠ u64Max) :
    e.next.value.toNat = e.value.toNat + 1 := by
  have hne : e.value.toNat ≠ 2 ^ 64 - 1 := fun heq => h (UInt64.toNat_inj.mp heq)
  have hlt := e.value.toNat_lt
  have hone : (1 : UInt64).toNat = 1 := rfl
  rw [EpochId.next, UInt64.toNat_add, hone]
  omega

theorem epoch_le_of_not_wraps (h : Sound c) {s : Section} (hs : c.perform s = some c')
    (hw : ¬c.wrapsEpoch s) : c.epoch.value.toNat ≤ c'.epoch.value.toNat := by
  rcases perform_epoch h hs with ⟨ha, he⟩ | ⟨-, he⟩
  · rw [he, next_toNat fun hmax => hw ⟨ha, hmax⟩]
    exact Nat.le_succ _
  · rw [he]

/-! ### The invariant -/

/-- What ties the log of the grants to the coordinator while the epoch does not run
around: every grant is under an epoch up to the current one, and the record of its
lease holds one as late. -/
structure Traced (c : Coordinator) (log : List MessageLeaseGrant) : Prop where
  recorded : recorded c log
  bounded : ∀ grant ∈ log, grant.epoch.value.toNat ≤ c.epoch.value.toNat
  kept : ∀ grant ∈ log, ∃ record ∈ c.leases.entries, record.grant.lease = grant.lease ∧
    record.grant.destination = grant.destination ∧ record.grant.boot = grant.boot ∧
      record.grant.worker = grant.worker ∧
        grant.epoch.value.toNat ≤ record.grant.epoch.value.toNat

theorem Traced.mem_log (h : Traced c log) {record : LeaseRecord}
    (hm : record ∈ c.leases.entries) : record.grant ∈ log :=
  List.mem_of_find?_eq_some (h.recorded record hm)

theorem Traced.record_le (h : Traced c log) {record : LeaseRecord}
    (hm : record ∈ c.leases.entries) :
    record.grant.epoch.value.toNat ≤ c.epoch.value.toNat := h.bounded _ (h.mem_log hm)

/-- The epoch of a lease's grants does not move back. -/
theorem record_epoch_le (h : Sound c) (ht : Traced c log) {s : Section}
    (hs : c.perform s = some c') (hw : ¬c.wrapsEpoch s) {a b : LeaseRecord}
    (ha : a ∈ c.leases.entries) (hb : b ∈ c'.leases.entries) (hk : b.key = a.key) :
    a.grant.epoch.value.toNat ≤ b.grant.epoch.value.toNat := by
  rcases perform_grant h hs hb with hg | ⟨⟨x, hx, hxb⟩, -⟩
  · cases granted_by h hs hg with
    | renewed record mem same =>
      have hkr : record.key = a.key := (congrArg StrongId.value same.lease).symm.trans hk
      rw [same.epoch, KeyedTable.eq_of_key_eq mem ha hkr]
    | leased request now order fault hseq hv hd hboot hworker hepoch =>
      rw [hepoch]
      exact (ht.record_le ha).trans (epoch_le_of_not_wraps h hs hw)
  · have hkx : x.key = a.key :=
      (congrArg (fun grant : MessageLeaseGrant => grant.lease.value) hxb).trans hk
    rw [← hxb, KeyedTable.eq_of_key_eq hx ha hkx]

theorem traced_step (h : Sound c) (ht : Traced c log) {s : Section}
    (hs : c.perform s = some c') (hw : ¬c.wrapsEpoch s) :
    Traced c' ((c.granted s).toList ++ log) := by
  have hle := epoch_le_of_not_wraps h hs hw
  refine ⟨recorded_step h ht.recorded hs, fun grant hm => ?_, fun grant hm => ?_⟩
  · rcases List.mem_append.mp hm with hm | hm
    · cases granted_by h hs (Option.mem_toList.mp hm) with
      | renewed record mem same =>
        rw [same.epoch]
        exact (ht.record_le mem).trans hle
      | leased request now order fault hseq hv hd hboot hworker hepoch => rw [hepoch]
    · exact (ht.bounded grant hm).trans hle
  · rcases List.mem_append.mp hm with hm | hm
    · obtain ⟨record, hr, -, rfl⟩ := granted_mem h hs (Option.mem_toList.mp hm)
      exact ⟨record, hr, rfl, rfl, rfl, rfl, le_refl _⟩
    · obtain ⟨a, ha, hlease, hd, hboot, hworker, hepoch⟩ := ht.kept grant hm
      obtain ⟨b, hb, hab⟩ := ((perform_tableStep h s hs).later h).kept a ha
      have hbl : b.grant.lease = a.grant.lease := StrongId.ext hab.key
      exact ⟨b, hb, hbl.trans hlease, hab.destination.trans hd, hab.boot.trans hboot,
        hab.worker.trans hworker, hepoch.trans (record_epoch_le h ht hs hw ha hb hab.key)⟩

/-- A grant agrees with every earlier one of its destination and epoch, unless its
request regrants. -/
theorem granted_fences (h : Sound c) (ht : Traced c log) (hf : epochsFence log) {s : Section}
    (hs : c.perform s = some c') (hw : ¬c.wrapsEpoch s) (hr : ¬c.regrants s)
    {grant earlier : MessageLeaseGrant} (hg : c.granted s = some grant) (he : earlier ∈ log)
    (hd : grant.destination = earlier.destination) (hepoch : grant.epoch = earlier.epoch) :
    grant.boot = earlier.boot ∧ grant.worker = earlier.worker := by
  cases granted_by h hs hg with
  | renewed record mem same =>
    rw [same.boot, same.worker]
    exact hf _ (ht.mem_log mem) _ he (same.destination.symm.trans hd) (same.epoch.symm.trans hepoch)
  | leased request now order fault hseq hv hgd hboot hworker hge =>
    have hbound := ht.bounded earlier he
    rw [← hepoch, hge] at hbound
    rcases perform_epoch h hs with ⟨ha, hnext⟩ | ⟨ha, hsame⟩
    · -- an advanced epoch is past every grant
      rw [hnext, next_toNat fun hmax => hw ⟨ha, hmax⟩] at hbound
      omega
    · obtain ⟨record, hm, -, hrd, hrb, hrw, hre⟩ := ht.kept earlier he
      rw [hboot, hworker, ← hrb, ← hrw]
      rw [hseq] at ha hr
      have hdest : record.grant.destination = request.destination :=
        hrd.trans (hd.symm.trans hgd)
      have hcurrent : record.grant.epoch = c.epoch := by
        have hle := ht.record_le hm
        rw [← hepoch, hge, hsame] at hre
        exact EpochId.ext (UInt64.toNat_inj.mp (Nat.le_antisymm hle hre))
      have hheld : record.heldBy request.boot request.worker := by
        by_contra hforeign
        by_cases hlive : record.live
        · exact ha ⟨hv, record, hm, ⟨hdest, hlive⟩, hforeign⟩
        · refine hr ⟨hv, fun other ho hc => ?_, record, hm, hlive, hdest, hforeign, hcurrent⟩
          by_contra hno
          exact ha ⟨hv, other, ho, hc, hno⟩
      exact ⟨hheld.1.symm, hheld.2.symm⟩

theorem epochsFence_step (h : Sound c) (ht : Traced c log) (hf : epochsFence log) {s : Section}
    (hs : c.perform s = some c') (hw : ¬c.wrapsEpoch s) (hr : ¬c.regrants s) :
    epochsFence ((c.granted s).toList ++ log) := by
  intro a ha b hb hd he
  rw [List.mem_append, Option.mem_toList] at ha hb
  rcases ha with ha | ha <;> rcases hb with hb | hb
  · obtain rfl := Option.some.inj (ha.symm.trans hb)
    exact ⟨rfl, rfl⟩
  · exact granted_fences h ht hf hs hw hr ha hb hd he
  · obtain ⟨hboot, hworker⟩ := granted_fences h ht hf hs hw hr hb ha hd.symm he.symm
    exact ⟨hboot.symm, hworker.symm⟩
  · exact hf a ha b hb hd he

/-- The condition is exact: a grant that regrants breaks the fence. -/
theorem regrant_breaks_fence (h : Sound c) (ht : Traced c log) {s : Section}
    (hs : c.perform s = some c') (hr : c.regrants s) {grant : MessageLeaseGrant}
    (hg : c.granted s = some grant) : ¬epochsFence ((c.granted s).toList ++ log) := by
  intro hf
  cases s with
  | leaseRequest request now order fault =>
    obtain ⟨hv, hheld, record, hm, hdead, hd, hforeign, hepoch⟩ := hr
    have hstays : ¬c.advances (.leaseRequest request now order fault) := by
      rintro ⟨-, other, ho, hc, hno⟩
      exact hno (hheld other ho hc)
    have hlog : record.grant ∈ (c.granted (.leaseRequest request now order fault)).toList ++ log :=
      List.mem_append_right _ (ht.mem_log hm)
    have hnew : grant ∈ (c.granted (.leaseRequest request now order fault)).toList ++ log :=
      List.mem_append_left _ (Option.mem_toList.mpr hg)
    obtain ⟨-, hgd, hboot, hworker, hge⟩ := leased_terms h hs hg
    rcases perform_epoch h hs with ⟨ha, -⟩ | ⟨-, hsame⟩
    · exact hstays ha
    · obtain ⟨hb, hw⟩ := hf _ hlog _ hnew (hd.trans hgd.symm) (by rw [hepoch, hge, hsame])
      exact hforeign ⟨hb.trans hboot, hw.trans hworker⟩
  | _ => exact hr

/-! ### Runs -/

/-- The section, if the process lives, neither makes the epoch run around nor regrants. -/
def keepsFence (s : Logged) (x : Section) : Prop :=
  ∀ c ∈ s.1, ¬c.wrapsEpoch x ∧ ¬c.regrants x

instance (s : Logged) (x : Section) : Decidable (keepsFence s x) :=
  inferInstanceAs (Decidable (∀ c ∈ s.1, ¬c.wrapsEpoch x ∧ ¬c.regrants x))

/-- The log of the grants of a run. -/
def grantLog (config : CoordinatorConfig) (environment : StartEnvironment) (disk : Option Text)
    (sections : List Section) : List MessageLeaseGrant :=
  (run loggedStep (launch config environment disk, []) sections).2

theorem granted_of_dead {s : Section} (hs : c.perform s = none) : c.granted s = none := by
  cases s with
  | leaseRequest request now order fault =>
    have hg : c.grantLease request now order fault = none := Option.map_eq_none_iff.mp hs
    rw [granted, hg, Option.bind_none]
  | _ => cases hs

/-- What a run keeps: the fence, and the invariant of the living process. -/
def Fenced (s : Logged) : Prop :=
  epochsFence s.2 ∧ ∀ c, s.1 = some c → Sound c ∧ Traced c s.2

theorem fenced_launch (config : CoordinatorConfig) (environment : StartEnvironment)
    (disk : Option Text) : Fenced (launch config environment disk, []) := by
  refine ⟨nofun, fun c hc => ?_⟩
  obtain ⟨environment', disk', hs⟩ := started_of_launch hc
  refine ⟨sound_of_started (started_of_launch hc), fun record hm => ?_, nofun, nofun⟩
  rw [(start_leases hs).1] at hm
  cases hm

theorem fenced_step {s : Logged} (h : Fenced s) (x : Section)
    (hc : keepsFence s x) : Fenced (loggedStep s x) := by
  obtain ⟨process, log⟩ := s
  cases process with
  | none => exact ⟨h.1, nofun⟩
  | some c =>
    obtain ⟨hsound, ht⟩ := h.2 c rfl
    obtain ⟨hw, hr⟩ := hc c rfl
    show Fenced (c.perform x, (c.granted x).toList ++ log)
    cases hp : c.perform x with
    | none =>
      rw [granted_of_dead hp]
      exact ⟨h.1, nofun⟩
    | some c' =>
      refine ⟨epochsFence_step hsound ht h.1 hp hw hr, fun next hnext => ?_⟩
      obtain rfl := Option.some.inj hnext
      exact ⟨hsound.step (perform_tableStep hsound x hp), traced_step hsound ht hp hw⟩

/-- In every run, under every interleaving, whose sections keep the fence, the grants of
one destination under one epoch go to one incarnation. -/
theorem run_epochs_fence (config : CoordinatorConfig) (environment : StartEnvironment)
    (disk : Option Text) (sections : List Section)
    (h : ∀ call ∈ loggedCalls config environment disk sections, keepsFence call.1 call.2) :
    epochsFence (grantLog config environment disk sections) :=
  (@run_invariant_of_calls _ _ loggedStep Fenced keepsFence (fun _ x hs hc => fenced_step hs x hc)
    _ (fenced_launch config environment disk) _ h).1

/-- One incarnation supersedes another: the epoch advances in between. -/
theorem run_epochs_fence_superseded :
    epochsFence (grantLog {} {} none [sampleLease 1 1000, sampleLease 2 2000]) :=
  run_epochs_fence {} {} none [sampleLease 1 1000, sampleLease 2 2000] (by decide +kernel)

/-- A late decision of the holder of lease 1, under an epoch that is not the current. -/
def latePublish : MessageDecisionPublish := { stalePublish with epoch := ⟨9⟩ }

/-- The late decision revokes the lease, and the destination passes on without an
advance. -/
theorem late_decision_breaks_fence :
    ¬epochsFence (grantLog {} {} none
      [sampleLease 1 1000, .decisionPublish latePublish ⟨1500⟩, sampleLease 2 2000]) := by
  decide +kernel

end Coordinator

end IncastGovernor
