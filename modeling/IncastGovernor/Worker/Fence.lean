import IncastGovernor.Coordinator.Origins
import IncastGovernor.Worker.Runs

/-! Fencing between workers. A client that names its lease under an epoch that is not the current
one loses it without an advance of the epoch, and the destination could then pass on under the
epoch it was granted in. No worker is such a client: its epoch is never behind that of its grant,
so a lease it loses so was granted under an epoch past. Every grant of a destination under one
epoch therefore goes to one incarnation. -/

namespace IncastGovernor

open Foundation

open Coordinator (Section)

namespace Coordinator

variable {c c' : Coordinator} {log : List MessageLeaseGrant} {s : Section}

/-- Revoked leases were granted under epochs past. -/
def Retired (c : Coordinator) : Prop :=
  ∀ record ∈ c.leases.entries, ¬record.live →
    record.grant.epoch.value.toNat < c.epoch.value.toNat

/-- A decision under another epoch than the current names a lease of an epoch past. -/
def latePublishes (c : Coordinator) (s : Section) : Prop :=
  ∀ publish now, s = .decisionPublish publish now → publish.epoch ≠ c.epoch →
    ∀ record ∈ c.leases.entries, record.key = publish.lease.value →
      record.grant.epoch.value.toNat < c.epoch.value.toNat

/-- Where a record was revoked before a section that does not advance the epoch, or is revoked by
it as a late decision's. -/
def revokedBefore (c : Coordinator) (s : Section) (b : LeaseRecord) : Prop :=
  ∃ a ∈ c.leases.entries, a.grant = b.grant ∧
    (¬a.live ∨ ∃ publish now, s = .decisionPublish publish now ∧ publish.epoch ≠ c.epoch ∧
      a.key = publish.lease.value)

/-- A section that leaves the epoch revokes nothing but the lease of a late decision. -/
theorem perform_revokedBefore (h : Sound c) (hs : c.perform s = some c') (ha : ¬c.advances s)
    {b : LeaseRecord} (hb : b ∈ c'.leases.entries) (hl : ¬b.live) : c.revokedBefore s b := by
  cases perform_origin h hs hb with
  | fresh entered =>
    rw [entered] at hl
    exact absurd rfl hl
  | kept mem => exact ⟨b, mem, rfl, Or.inl hl⟩
  | claimed a mem request now valid requested made =>
    obtain ⟨order, fault, rfl⟩ := requested
    subst made
    unfold claimRecord at hl ⊢
    split_ifs at hl ⊢ with hclaimed hheld
    · exact absurd hclaimed.2 hl
    · exact absurd ⟨valid, a, mem, hclaimed, hheld⟩ ha
    · exact ⟨a, mem, rfl, Or.inl hl⟩
  | renewed a mem live now expires made =>
    rw [made] at hl
    exact absurd live hl
  | decided a mem publish now published key made =>
    subst made
    refine ⟨a, mem, (publishRecord_grant c publish now a).symm, ?_⟩
    unfold publishRecord at hl
    split_ifs at hl with hlate haccepted
    · exact Or.inr ⟨publish, now, published, hlate.2, key⟩
    · exact Or.inl hl
    · exact Or.inl hl
  | revoked a mem advances made => exact absurd advances ha

theorem retired_step (h : Sound c) (ht : Traced c log) (hr : Retired c)
    (hs : c.perform s = some c') (hw : ¬c.wrapsEpoch s) (hlate : c.latePublishes s) :
    Retired c' := by
  intro b hb hl
  rcases perform_epoch h hs with ⟨ha, hnext⟩ | ⟨ha, hsame⟩
  · -- an advance leaves every grant behind
    have hbound : b.grant.epoch.value.toNat ≤ c.epoch.value.toNat := by
      rcases perform_grant h hs hb with hsent | ⟨⟨a, hm, hab⟩, -⟩
      · obtain ⟨record, hm, hlive, hrecord⟩ := granted_mem h hs hsent
        have hkey : record.key = b.key :=
          congrArg (fun grant : MessageLeaseGrant => grant.lease.value) hrecord
        rw [KeyedTable.eq_of_key_eq hm hb hkey] at hlive
        exact absurd hlive hl
      · rw [← hab]
        exact ht.record_le hm
    rw [hnext, next_toNat fun hmax => hw ⟨ha, hmax⟩]
    exact Nat.lt_succ_of_le hbound
  · obtain ⟨a, hm, hab, hdead | ⟨publish, now, hpublish, hother, hk⟩⟩ :=
      perform_revokedBefore h hs ha hb hl
    · rw [hsame, ← hab]
      exact hr a hm hdead
    · rw [hsame, ← hab]
      exact hlate publish now hpublish hother a hm hk

/-- No request regrants where the revoked leases are of epochs past. -/
theorem Retired.not_regrants (h : Retired c) : ¬c.regrants s := by
  cases s with
  | leaseRequest request now order fault =>
    rintro ⟨-, -, record, hm, hdead, -, -, hepoch⟩
    have hlt := h record hm hdead
    rw [hepoch] at hlt
    exact Nat.lt_irrefl _ hlt
  | _ => exact id

end Coordinator

/-! ### Decisions of workers -/

/-- The decision of a worker is late only for a lease of an epoch past. -/
theorem GovernorWorker.Synced.latePublishes {c : Coordinator} {w : GovernorWorker}
    (h : w.Synced c) (hp : c.positive) (call : Call) (input : Input) :
    c.latePublishes (w.dispatched input call) := by
  rintro publish now hpublish hother record hm hk
  cases call with
  | publish decision =>
    obtain ⟨rfl, -⟩ := Section.decisionPublish.inj hpublish
    obtain ⟨-, hgrant⟩ := h.record hp hm hk
    have hne : w.epoch.value.toNat ≠ c.epoch.value.toNat := by
      intro heq
      exact hother (EpochId.ext (UInt64.toNat_inj.mp heq))
    rw [hgrant]
    exact h.granted_le.trans_lt (h.epoch_le.lt_of_ne hne)
  | _ => cases hpublish

theorem Process.Agrees.latePublishes {c : Coordinator} {p : Process} {input : Input}
    {stage next : Stage} {o : Option Section} (h : p.Agrees c stage)
    (hturn : Turn c input stage o next) (hp : c.positive) : ∀ s ∈ o, c.latePublishes s := by
  rintro s hs publish now rfl
  obtain ⟨decision, -, -, rfl, synced⟩ := h.turn_decides hturn hs
  exact synced.latePublishes hp (.publish decision) { now } _ now rfl

/-! ### The fence -/

/-- The grants fence, and the revoked leases cannot be regranted. -/
structure Board.Fenced (b : Board) : Prop where
  retired : b.coordinator.Retired
  fence : epochsFence b.grants

theorem Board.Fenced.advance {b : Board} (h : b.Fenced) (hb : b.Coherent) {o : Option Section}
    {c' : Coordinator} (hw : ∀ s ∈ o, keepsEpoch b.coordinator s)
    (hp : Server.performed b.coordinator o = some c')
    (hlate : ∀ s ∈ o, b.coordinator.latePublishes s) : (b.advance c' o).Fenced := by
  cases o with
  | none =>
    obtain rfl := Option.some.inj hp
    exact h
  | some s =>
    have hs : b.coordinator.perform s = some c' := hp
    exact ⟨Coordinator.retired_step hb.sound hb.traced h.retired hs (hw s rfl) (hlate s rfl),
      Coordinator.epochsFence_step hb.sound hb.traced h.fence hs (hw s rfl) h.retired.not_regrants⟩

theorem fenced_rules {workers : ℕ → WorkerConfig} {ids : Set ℕ}
    (hd : distinctIncarnations workers ids) :
    Rules (fun b => b.Coherent ∧ b.Fenced) (Process.Coherent workers ids) keepsEpoch
      (madeBy ids) :=
  (coherent_rules hd).board fun b o c' hb hf hw hp ho => by
    refine hf.advance hb hw hp ?_
    cases ho with
    | operated operates =>
      rintro s hs publish now rfl
      cases operates _ hs
    | turned id p stage next input process turn =>
      exact process.agrees.latePublishes turn hb.positive

/-! ### Holders -/

/-- The coordinator's record of the worker's lease is live, and holds its grant. -/
def GovernorWorker.holds (c : Coordinator) (w : GovernorWorker) : Prop :=
  ∃ record ∈ c.leases.entries, record.live ∧ record.grant = w.lease

instance (c : Coordinator) (w : GovernorWorker) : Decidable (w.holds c) :=
  inferInstanceAs (Decidable (∃ record ∈ c.leases.entries, record.live ∧ record.grant = w.lease))

/-- What a process holds is addressed to its worker. -/
theorem Process.Coherent.holder {workers : ℕ → WorkerConfig} {ids : Set ℕ} {b : Board}
    (hb : b.Coherent) {id : ℕ} {p : Process} {stage : Stage}
    (h : p.Coherent workers ids id b stage) {record : LeaseRecord}
    (hm : record ∈ b.coordinator.leases.entries) (hg : record.grant = p.worker.lease) :
    id ∈ ids ∧ record.grant.boot = (workers id).boot ∧ record.grant.worker = (workers id).worker ∧
      record.grant.destination = (workers id).destination := by
  have hkey : record.key = p.worker.lease.lease.value := by rw [← hg]; rfl
  have hpositive := hb.positive record hm
  have haddressed : p.worker.addressed p.worker.lease := by
    refine h.leased.resolve_left fun hnone => ?_
    rw [hkey, hnone] at hpositive
    exact hpositive rfl
  refine ⟨?_, ?_⟩
  · by_contra hid
    rw [hkey, (h.inert hid).2] at hpositive
    exact hpositive rfl
  · rw [← h.config, hg]
    exact haddressed

theorem Process.Coherent.one_holder {workers : ℕ → WorkerConfig} {ids : Set ℕ}
    (hd : distinctIncarnations workers ids) {b : Board} (hb : b.Coherent) {i j : ℕ} {p q : Process}
    {stage stage' : Stage} (h : p.Coherent workers ids i b stage)
    (h' : q.Coherent workers ids j b stage') (hsame : (workers i).destination = (workers j).destination)
    (hp : p.worker.holds b.coordinator) (hq : q.worker.holds b.coordinator) : i = j := by
  obtain ⟨x, hx, hlive, hgrant⟩ := hp
  obtain ⟨y, hy, hlive', hgrant'⟩ := hq
  obtain ⟨hi, hboot, hworker, hdestination⟩ := h.holder hb hx hgrant
  obtain ⟨hj, hboot', hworker', hdestination'⟩ := h'.holder hb hy hgrant'
  have hxy : x = y := KeyedTable.eq_of_key_eq hx hy (hb.sound.exclusive x hx y hy hlive hlive'
    (hdestination.trans (hsame.trans hdestination'.symm)))
  rw [← hxy] at hboot' hworker'
  exact hd hi hj (Prod.ext (hboot.symm.trans hboot') (hworker.symm.trans hworker'))

/-! ### Runs -/

namespace Deployment

variable {config : CoordinatorConfig} {environment : Coordinator.StartEnvironment}
  {disk : Option Text} {workers : ℕ → WorkerConfig} {ids : Set ℕ}

theorem fenced_launch : ∀ d ∈ launch config environment disk workers,
    Holds (fun b => b.Coherent ∧ b.Fenced) (Process.Coherent workers ids) d := by
  rintro d hd
  obtain ⟨hboard, hprocesses⟩ := coherent_launch d hd
  obtain ⟨c, hc, rfl⟩ := launch_eq_some hd
  obtain ⟨environment', disk', hstart⟩ := Coordinator.started_of_launch hc
  refine ⟨⟨hboard, fun record hm => ?_, fun a ha => ?_⟩, hprocesses⟩
  · change record ∈ c.leases.entries at hm
    rw [(Coordinator.start_leases hstart).1] at hm
    cases hm
  · cases ha

/-- Between workers of distinct incarnations the epochs fence: over every interleaving of their
calls, of the threads that serve them and of the operators, with replies and connections lost at
any point, the grants of one destination under one epoch go to one incarnation. -/
theorem run_workers_fence (config : CoordinatorConfig) (environment : Coordinator.StartEnvironment)
    (disk : Option Text) (workers : ℕ → WorkerConfig) (events : List DeploymentEvent)
    (hd : distinctIncarnations workers (callers events))
    (h : withinEpochs config environment disk events) :
    ∀ d ∈ runTo config environment disk workers events, epochsFence d.grants := by
  intro d hrun
  have hholds := run_holds (fenced_rules hd) fenced_launch h (fun _ call sent hm => ⟨call, sent, hm⟩)
  exact (hholds d hrun).board.2.fence

theorem run_workers_fence_superseding :
    ∃ d, runTo {} {} none sampleWorkers superseding = some d ∧ d.grants.length = 2 ∧
      epochsFence d.grants := by
  obtain ⟨d, hd, hgrants⟩ := sample_meets superseding (fun d => d.grants.length = 2) (by decide +kernel)
  exact ⟨d, hd, of_decide_eq_true hgrants,
    run_workers_fence {} {} none sampleWorkers superseding superseding_distinct
      superseding_within d hd⟩

/-! ### Holders -/

/-- At every moment of such a run no worker is ahead of the coordinator's epoch, and one that is
between two calls holds no lease or the grant in the coordinator's record of it, which is its own
and not of an epoch past the worker's. -/
theorem run_workers_agree (config : CoordinatorConfig) (environment : Coordinator.StartEnvironment)
    (disk : Option Text) (workers : ℕ → WorkerConfig) (events : List DeploymentEvent)
    (hd : distinctIncarnations workers (callers events))
    (h : withinEpochs config environment disk events) :
    ∀ d ∈ runTo config environment disk workers events, ∀ id,
      (d.processes id).worker.epoch.value.toNat ≤ d.coordinator.epoch.value.toNat ∧
        ((d.processes id).calling = none → (d.processes id).worker.Synced d.coordinator) := by
  intro d hrun id
  have hholds :=
    run_holds (coherent_rules hd) coherent_launch h (fun _ call sent hm => ⟨call, sent, hm⟩)
  obtain ⟨stage, -, hprocess⟩ := (hholds d hrun).processes id
  exact ⟨hprocess.epoch_le, fun hcalling => (hprocess.agrees.resting_of_idle hcalling).2⟩

theorem run_workers_agree_superseding :
    ∃ d, runTo {} {} none sampleWorkers superseding = some d ∧
      (d.processes 0).worker.Synced d.coordinator := by
  obtain ⟨d, hd, hcalling⟩ :=
    sample_meets superseding (fun d => (d.processes 0).calling.isNone) (by decide +kernel)
  exact ⟨d, hd, (run_workers_agree {} {} none sampleWorkers superseding superseding_distinct
    superseding_within d hd 0).2 (Option.isNone_iff_eq_none.mp hcalling)⟩

theorem Holds.one_holder {workers : ℕ → WorkerConfig} {ids : Set ℕ} {d : Deployment} {i j : ℕ}
    (h : Holds Board.Coherent (Process.Coherent workers ids) d)
    (hd : distinctIncarnations workers ids)
    (hdestination : (workers i).destination = (workers j).destination)
    (hi : (d.processes i).worker.holds d.coordinator)
    (hj : (d.processes j).worker.holds d.coordinator) : i = j := by
  obtain ⟨hboard, hprocesses⟩ := h
  obtain ⟨stage, -, hcoherent⟩ := hprocesses i
  obtain ⟨stage', -, hcoherent'⟩ := hprocesses j
  exact hcoherent.one_holder hd hboard hcoherent' hdestination hi hj

/-- At no moment of such a run do two workers of one destination hold live leases. -/
theorem run_one_holder (config : CoordinatorConfig) (environment : Coordinator.StartEnvironment)
    (disk : Option Text) (workers : ℕ → WorkerConfig) (events : List DeploymentEvent)
    (hd : distinctIncarnations workers (callers events))
    (h : withinEpochs config environment disk events) :
    ∀ d ∈ runTo config environment disk workers events, ∀ i j,
      (workers i).destination = (workers j).destination →
        (d.processes i).worker.holds d.coordinator → (d.processes j).worker.holds d.coordinator →
          i = j := by
  intro d hrun i j hdestination hi hj
  have hholds :=
    run_holds (coherent_rules hd) coherent_launch h (fun _ call sent hm => ⟨call, sent, hm⟩)
  exact (hholds d hrun).one_holder hd hdestination hi hj

theorem run_one_holder_superseding :
    ∃ d, runTo {} {} none sampleWorkers superseding = some d ∧
      (d.processes 1).worker.holds d.coordinator ∧ ¬(d.processes 0).worker.holds d.coordinator := by
  obtain ⟨d, hd, hholder⟩ :=
    sample_meets superseding (fun d => (d.processes 1).worker.holds d.coordinator) (by decide +kernel)
  have hholds := of_decide_eq_true hholder
  refine ⟨d, hd, hholds, fun hother => ?_⟩
  have hsame := run_one_holder {} {} none sampleWorkers superseding superseding_distinct
    superseding_within d hd 0 1 rfl hother hholds
  exact absurd hsame (by decide)

end Deployment

end IncastGovernor
