import IncastGovernor.Coordinator.Origins
import IncastGovernor.Worker.Delivery

/-! What the decision of a worker is accepted for. The coordinator checks six things of a decision.
For the decisions of its workers three of them cannot fail: the boot and the worker are those of
the lease, and the sequence is a new one. What is left is that the lease is live, that it has not
expired, and that the worker knows the current epoch. -/

namespace IncastGovernor

open Foundation

open Coordinator (Section)

namespace Coordinator

variable {c c' : Coordinator} {s : Section}

/-- The sequence of a record is that of a fresh lease, the one it had for the same incarnation, or
that of a decision of its holder. -/
theorem perform_leaseSequence (h : Sound c) (hs : c.perform s = some c') {b : LeaseRecord}
    (hb : b ∈ c'.leases.entries) :
    b.leaseSequence = 0 ∨
      (∃ a ∈ c.leases.entries, a.grant.boot = b.grant.boot ∧ a.grant.worker = b.grant.worker ∧
        a.leaseSequence = b.leaseSequence) ∨
      ∃ publish now, s = .decisionPublish publish now ∧ b.heldBy publish.boot publish.worker ∧
        b.leaseSequence = publish.sequence := by
  cases perform_origin h hs hb with
  | fresh entered =>
    rw [entered]
    exact Or.inl rfl
  | kept mem => exact Or.inr (Or.inl ⟨b, mem, rfl, rfl, rfl⟩)
  | claimed a mem request now valid requested made =>
    subst made
    refine Or.inr (Or.inl ⟨a, mem, ?_⟩)
    unfold claimRecord
    split_ifs <;> exact ⟨rfl, rfl, rfl⟩
  | renewed a mem live now expires made =>
    subst made
    exact Or.inr (Or.inl ⟨a, mem, rfl, rfl, rfl⟩)
  | revoked a mem advances made =>
    subst made
    exact Or.inr (Or.inl ⟨a, mem, rfl, rfl, rfl⟩)
  | decided a mem publish now published key made =>
    subst made
    unfold publishRecord
    split_ifs with hlate haccepted
    · exact Or.inr (Or.inl ⟨a, mem, rfl, rfl, rfl⟩)
    · obtain ⟨-, -, hboot, hworker, -, -⟩ := publishRefusal_eq_none.mp haccepted
      exact Or.inr (Or.inr ⟨publish, now, published, ⟨hboot, hworker⟩, rfl⟩)
    · exact Or.inr (Or.inl ⟨a, mem, rfl, rfl, rfl⟩)

/-- What a refusal says of a decision: it names no live lease, its epoch is not the current one, or
the lease it names has expired. -/
def refusedFor (c : Coordinator) (publish : MessageDecisionPublish) (now : Timestamp) :
    RefusalReason → Prop
  | .leaseMissing =>
    ∀ record ∈ c.leases.entries, record.key = publish.lease.value → ¬record.live
  | .epochMismatch => publish.epoch ≠ c.epoch
  | .leaseExpired => ∃ record ∈ c.leases.entries, record.key = publish.lease.value ∧
      record.grant.expiresAt < now
  | _ => False

/-- A decision that is refused though its boot, its worker and its sequence pass. -/
theorem publishDecision_refusedFor {publish : MessageDecisionPublish} {now : Timestamp}
    (hpasses : ∀ record, c.leases.find publish.lease.value = some record →
      record.heldBy publish.boot publish.worker ∧ record.leaseSequence < publish.sequence)
    (h : (c.publishDecision publish now).2.accepted = false) :
    c.refusedFor publish now (c.publishDecision publish now).2.reason := by
  unfold publishDecision at h ⊢
  simp only at h ⊢
  cases hf : c.leases.find publish.lease.value with
  | none => exact fun record hm hkey => absurd hkey (KeyedTable.find_eq_none.mp hf record hm)
  | some record =>
    obtain ⟨⟨hboot, hworker⟩, hsequence⟩ := hpasses record hf
    obtain ⟨hm, hkey⟩ := KeyedTable.find_eq_some.mp hf
    have hnewer : ¬publish.sequence ≤ record.leaseSequence := UInt64.not_le.mpr hsequence
    have hrefusal : c.publishRefusal publish record now =
        if ¬record.live then some (.leaseMissing, ascii "decision references a revoked lease")
        else if publish.epoch ≠ c.epoch then
          some (.epochMismatch, ascii "decision was produced under a superseded epoch")
        else if record.grant.expiresAt < now then
          some (.leaseExpired, ascii "lease expired before the decision was published")
        else none := by
      unfold publishRefusal
      simp only [hboot, hworker, hnewer, ne_eq, not_true_eq_false, if_false]
    simp only [hf] at h ⊢
    rw [hrefusal] at h ⊢
    by_cases hlive : record.live
    swap
    · rw [if_pos hlive]
      intro other ho hother
      rwa [KeyedTable.eq_of_key_eq ho hm (hother.trans hkey.symm)]
    rw [if_neg (not_not.mpr hlive)] at h ⊢
    by_cases hepoch : publish.epoch = c.epoch
    swap
    · rw [if_pos hepoch]
      exact hepoch
    rw [if_neg (not_not.mpr hepoch)] at h ⊢
    by_cases hexpired : record.grant.expiresAt < now
    · rw [if_pos hexpired]
      exact ⟨record, hm, hkey, hexpired⟩
    · rw [if_neg hexpired] at h
      cases h

end Coordinator

/-! ### The sequences of a worker -/

/-- No record of a worker is past the decisions it has published. -/
def Process.Ahead (workers : ℕ → WorkerConfig) (ids : Set ℕ) (id : ℕ) (b : Board) (_ : Process)
    (_ : Stage) : Prop :=
  id ∈ ids → ∀ record ∈ b.coordinator.leases.entries,
    record.heldBy (workers id).boot (workers id).worker →
      record.leaseSequence.toNat ≤ (decisionsOf (workers id) b.decisions).length

section Rules

variable {workers : ℕ → WorkerConfig} {ids : Set ℕ} {b : Board} {c' : Coordinator} {id : ℕ}
  {p q : Process} {stage stage' next : Stage} {frame : Frame} {o : Option Section}

/-- The decision of a call is numbered behind those the coordinator answered. -/
theorem Process.Level.sequence (h : p.Level workers ids id b (.requested frame)) (hid : id ∈ ids)
    {decision : Decision} (hcalling : p.calling = some (.publish decision)) :
    p.published.length = (decisionsOf (workers id) b.decisions).length + 1 ∧
      p.worker.sequence =
        UInt64.ofNat ((decisionsOf (workers id) b.decisions).length + 1) := by
  obtain ⟨rest, hlog, rfl⟩ := (h.delivers hid).decided
  have hlength : p.published.length = (decisionsOf (workers id) b.decisions).length + 1 := by
    rw [(h.delivers hid).published, hlog]
    simp [Process.unanswered, hcalling, GovernorWorker.publishes, told]
  exact ⟨hlength, by rw [h.numbered.sequence, hlength]⟩

theorem decisionsOf_length_le (config : WorkerConfig) (b : Board) (c' : Coordinator)
    (o : Option Section) :
    (decisionsOf config b.decisions).length ≤
      (decisionsOf config (b.advance c' o).decisions).length := by
  rw [Board.advance_decisions]
  unfold decisionsOf
  rw [List.filter_append, List.length_append]
  exact Nat.le_add_right _ _

/-- Nothing gets ahead of a worker by a section whose decision, if it is the worker's, is
numbered behind the others. -/
theorem Process.Ahead.advance (hb : b.Coherent) (h : p.Ahead workers ids id b stage)
    (hp : Server.performed b.coordinator o = some c')
    (hown : id ∈ ids → ∀ publish now, .decisionPublish publish now ∈ o →
      (workers id).sends publish → publish.sequence.toNat ≤
        (decisionsOf (workers id) b.decisions).length + 1) :
    q.Ahead workers ids id (b.advance c' o) next := by
  intro hid record hm hheld
  rw [Board.advance_coordinator] at hm
  cases o with
  | none =>
    obtain rfl := Option.some.inj hp
    exact h hid record hm hheld
  | some s =>
    have hs : b.coordinator.perform s = some c' := hp
    have hgrows := decisionsOf_length_le (workers id) b c' (some s)
    rcases Coordinator.perform_leaseSequence hb.sound hs hm with
      hzero | ⟨a, ha, hboot, hworker, hsame⟩ | ⟨publish, now, rfl, hpublisher, hsequence⟩
    · rw [hzero]
      exact Nat.zero_le _
    · rw [← hsame]
      exact (h hid a ha ⟨hboot.trans hheld.1, hworker.trans hheld.2⟩).trans hgrows
    · have hsends : (workers id).sends publish :=
        ⟨hpublisher.1.symm.trans hheld.1, hpublisher.2.symm.trans hheld.2⟩
      rw [hsequence]
      refine (hown hid publish now rfl hsends).trans (Nat.le_of_eq ?_)
      rw [Board.advance_decisions]
      simp [decisionsOf, Coordinator.published, hsends]

theorem ahead_adds (hd : distinctIncarnations workers ids) :
    Rules.Adds Board.Coherent
      (fun id b p stage => p.Coherent workers ids id b stage ∧ p.Level workers ids id b stage)
      (Process.Ahead workers ids) keepsEpoch (madeBy ids) where
  operated := by
    rintro b s c' id p stage hb ho hw hp - h
    refine h.advance hb hp fun hid publish now hs => ?_
    obtain rfl := Option.some.inj hs
    cases ho
  turned := by
    rintro b input o c' id p stage next hb ⟨hcoherent, hlevel⟩ h hturn hw hp
    refine h.advance hb hp fun hid publish now hs hsends => ?_
    obtain ⟨decision, hcalling, rfl, rfl, -⟩ := hcoherent.agrees.turn_decides hturn hs
    show p.worker.sequence.toNat ≤ _
    rw [(hlevel.sequence hid hcalling).2, UInt64.toNat_ofNat']
    exact Nat.mod_le _ _
  other := by
    rintro b input o c' id p stage next id' p' stage' hb ⟨hcoherent, -⟩ hturn hw hp hne - h
    refine h.advance hb hp fun hid' publish now hs hsends => ?_
    obtain ⟨decision, hcalling, -, rfl, -⟩ := hcoherent.agrees.turn_decides hturn hs
    have hid : id ∈ ids := hcoherent.caller (by rw [hcalling]; exact Option.some_ne_none _)
    obtain ⟨hboot, hworker⟩ := hsends
    change p.worker.config.boot = _ at hboot
    change p.worker.config.worker = _ at hworker
    rw [hcoherent.config] at hboot hworker
    exact absurd (hd hid' hid (Prod.ext hboot.symm hworker.symm)) hne
  started := fun b id p stage call sent hb ha h hfree hmade hchecks => h
  failed := fun b id p stage call error hb ha h hcalling hrunning => h
  finished := fun b id p call frame hb ha h hcalling hrunning => ⟨h, h⟩
  refused := fun b id p call error hb ha h hcalling hrunning => h
  closed := fun b id p stage hb ha h hfree => h

theorem ahead_rules (hd : distinctIncarnations workers ids) :
    Rules Board.Coherent
      (fun id b p stage => (p.Coherent workers ids id b stage ∧ p.Level workers ids id b stage) ∧
        p.Ahead workers ids id b stage) keepsEpoch (madeBy ids) :=
  (level_rules hd).add (ahead_adds hd)

/-- The lease a decision names is live and has not expired, and its epoch is the current one. -/
def Coordinator.warrants (c : Coordinator) (publish : MessageDecisionPublish) (now : Timestamp) :
    Prop :=
  publish.epoch = c.epoch ∧ ∃ record ∈ c.leases.entries, record.key = publish.lease.value ∧
    record.live ∧ ¬record.grant.expiresAt < now

/-- The record that the decision of a call names has the boot and the worker of the decision, and
no sequence of it yet. -/
theorem Process.Coherent.passes (hb : b.Coherent) (h : p.Coherent workers ids id b stage)
    (hlevel : p.Level workers ids id b stage) (hahead : p.Ahead workers ids id b stage)
    {input : Input} (hturn : Turn b.coordinator input stage o next)
    {publish : MessageDecisionPublish} {now : Timestamp} (hs : .decisionPublish publish now ∈ o)
    (hlength : p.published.length < 2 ^ 64) {record : LeaseRecord}
    (hfind : b.coordinator.leases.find publish.lease.value = some record) :
    record.heldBy publish.boot publish.worker ∧ record.leaseSequence < publish.sequence := by
  obtain ⟨decision, hcalling, rfl, rfl, hsynced⟩ := h.agrees.turn_decides hturn hs
  have hid : id ∈ ids := h.caller (by rw [hcalling]; exact Option.some_ne_none _)
  obtain ⟨hm, hkey⟩ := KeyedTable.find_eq_some.mp hfind
  obtain ⟨⟨hboot, hworker, -⟩, hgrant⟩ := hsynced.record hb.positive hm hkey
  rw [← hgrant] at hboot hworker
  refine ⟨⟨hboot, hworker⟩, UInt64.not_le.mp fun hle => ?_⟩
  have hheld : record.heldBy (workers id).boot (workers id).worker := by
    rw [← h.config]
    exact ⟨hboot, hworker⟩
  have hbound := hahead hid record hm hheld
  obtain ⟨hpublished, hsequence⟩ := hlevel.sequence hid hcalling
  have hle' : p.worker.sequence.toNat ≤ record.leaseSequence.toNat := UInt64.le_iff_toNat_le.mp hle
  rw [hsequence, UInt64.toNat_ofNat', Nat.mod_eq_of_lt (by omega)] at hle'
  omega

theorem Process.Coherent.warranted (hb : b.Coherent) (h : p.Coherent workers ids id b stage)
    (hlevel : p.Level workers ids id b stage) (hahead : p.Ahead workers ids id b stage)
    {input : Input} (hturn : Turn b.coordinator input stage o next)
    {publish : MessageDecisionPublish} {now : Timestamp} (hs : .decisionPublish publish now ∈ o)
    (hlength : p.published.length < 2 ^ 64) :
    (b.coordinator.publishDecision publish now).2.accepted = true ↔
      b.coordinator.warrants publish now := by
  rw [Coordinator.accepted_iff]
  constructor
  · rintro ⟨record, hfind, hrefusal⟩
    obtain ⟨hlive, hepoch, -, -, hexpires, -⟩ := Coordinator.publishRefusal_eq_none.mp hrefusal
    obtain ⟨hm, hkey⟩ := KeyedTable.find_eq_some.mp hfind
    exact ⟨hepoch, record, hm, hkey, hlive, hexpires⟩
  · rintro ⟨hepoch, record, hm, hkey, hlive, hexpires⟩
    have hfind : b.coordinator.leases.find publish.lease.value = some record :=
      KeyedTable.find_eq_some.mpr ⟨hm, hkey⟩
    obtain ⟨⟨hboot, hworker⟩, hsequence⟩ := h.passes hb hlevel hahead hturn hs hlength hfind
    exact ⟨record, hfind, Coordinator.publishRefusal_eq_none.mpr
      ⟨hlive, hepoch, hboot, hworker, hexpires, UInt64.not_le.mpr hsequence⟩⟩

end Rules

/-! ### Runs -/

theorem Process.start_published (p : Process) (call : Call) (sent : Bool) :
    (p.start call sent).published.length ≤ p.published.length + 1 := by
  cases call <;> simp [Process.start, GovernorWorker.publishes]

theorem Process.finish_published (p : Process) (call : Call) (frame : Frame) :
    (p.finish call frame).published = p.published := by
  unfold Process.finish
  simp only
  split_ifs <;> rfl

namespace Deployment

variable {d d' : Deployment} {event : DeploymentEvent} {config : CoordinatorConfig}
  {environment : Coordinator.StartEnvironment} {disk : Option Text} {workers : ℕ → WorkerConfig}
  {ids : Set ℕ}

/-- A process that changes publishes one decision at most, and the others none. -/
theorem published_update {id : ℕ} {p : Process}
    (h : p.published.length ≤ (d.processes id).published.length + 1) (id' : ℕ) :
    (Function.update d.processes id p id').published.length ≤
      (d.processes id').published.length + 1 := by
  by_cases heq : id' = id
  · rw [heq, Function.update_self]
    exact h
  · rw [Function.update_of_ne heq]
    exact Nat.le_succ _

/-- A call publishes one decision at most. -/
theorem call_published (id : ℕ) (call : Call) (sent : Bool) (id' : ℕ) :
    ((d.call id call sent).processes id').published.length ≤
      (d.processes id').published.length + 1 := by
  have hstart := (d.processes id).start_published call sent
  unfold Deployment.call
  by_cases hbusy : (d.processes id).ended ∨ (d.processes id).calling.isSome
  · simp only [if_pos hbusy]
    exact Nat.le_succ _
  · simp only [if_neg hbusy]
    cases (d.processes id).worker.checks call with
    | error error => exact Nat.le_succ _
    | ok checked => cases call <;> exact published_update hstart id'

/-- What settles a call publishes none. -/
theorem settle_published (id : ℕ) (lost : Option Error) (id' : ℕ) :
    ((d.settle id lost).processes id').published.length ≤
      (d.processes id').published.length + 1 := by
  unfold Deployment.settle
  simp only
  cases (d.processes id).calling with
  | none => exact Nat.le_succ _
  | some call =>
    simp only
    split_ifs
    · exact Nat.le_succ _
    · cases lost with
      | some error =>
        exact @published_update d id ((d.processes id).fail call error) (Nat.le_succ _) id'
      | none =>
        cases (d.links id).replies with
        | nil => exact Nat.le_succ _
        | cons frame replies =>
          refine published_update ?_ id'
          rw [Process.finish_published]
          exact Nat.le_succ _

/-- Every event publishes one decision of a process at most. -/
theorem perform_published (hs : d.perform event = some d') (id : ℕ) :
    (d'.processes id).published.length ≤ (d.processes id).published.length + 1 := by
  cases event with
  | call id' call sent =>
    obtain rfl := Option.some.inj hs
    rw [logged_processes]
    exact call_published id' call sent id
  | settle id' lost =>
    obtain rfl := Option.some.inj hs
    rw [logged_processes]
    exact settle_published id' lost id
  | close id' =>
    obtain rfl := Option.some.inj hs
    rw [logged_processes]
    unfold Deployment.close
    simp only
    split_ifs
    · exact Nat.le_succ _
    · exact @published_update d id' { d.processes id' with worker := (d.processes id').worker.close }
        (Nat.le_succ _) id
  | operate s =>
    rw [perform_processes hs (Or.inr ⟨s, rfl⟩)]
    exact Nat.le_succ _
  | session id' given =>
    rw [perform_processes hs (Or.inl ⟨id', given, rfl⟩)]
    exact Nat.le_succ _

theorem runCalls_published {events : List DeploymentEvent} {call : Option Deployment × DeploymentEvent}
    (hc : call ∈ runCalls config environment disk workers events) :
    ∀ d ∈ call.1, ∀ id, (d.processes id).published.length < events.length := by
  have hstep : ∀ n s i, n < events.length →
      (∀ d ∈ s, ∀ id, (d.processes id).published.length ≤ n) →
        ∀ d ∈ step s i, ∀ id, (d.processes id).published.length ≤ n + 1 := by
    rintro n s i - h d' hd' id
    obtain ⟨d, rfl, hs⟩ := Option.bind_eq_some_iff.mp hd'
    exact (perform_published hs id).trans (Nat.succ_le_succ (h d rfl id))
  have hstart : ∀ d ∈ launch config environment disk workers, ∀ id,
      (d.processes id).published.length ≤ 0 := by
    rintro d hd id
    obtain ⟨c, -, rfl⟩ := launch_eq_some hd
    exact le_refl _
  obtain ⟨m, hm, h⟩ := calls_invariant_counted hstep hstart (Nat.zero_add _).le hc
  exact fun d hd id => (h d hd id).trans_lt hm

theorem ahead_launch : ∀ d ∈ launch config environment disk workers,
    Holds Board.Coherent
      (fun id b p stage => (p.Coherent workers ids id b stage ∧ p.Level workers ids id b stage) ∧
        p.Ahead workers ids id b stage) d := by
  rintro d hd
  obtain ⟨hboard, hprocesses⟩ := @level_launch config environment disk workers ids d hd
  obtain ⟨c, hc, rfl⟩ := launch_eq_some hd
  obtain ⟨environment', disk', hstart⟩ := Coordinator.started_of_launch hc
  refine ⟨hboard, fun id => ?_⟩
  obtain ⟨stage, hwires, hlevel⟩ := hprocesses id
  refine ⟨stage, hwires, hlevel, fun hid record hm => ?_⟩
  change record ∈ c.leases.entries at hm
  rw [(Coordinator.start_leases hstart).1] at hm
  cases hm

/-- Over every interleaving of a deployment, the coordinator accepts a decision of a worker exactly
if it names a live lease that has not expired, under the current epoch. The record of the lease has
the boot and the worker of the decision and an older sequence, and what is refused is refused for
the lease, its expiry or the epoch. -/
theorem run_decisions_accepted_iff (config : CoordinatorConfig)
    (environment : Coordinator.StartEnvironment) (disk : Option Text) (workers : ℕ → WorkerConfig)
    (events : List DeploymentEvent) (hd : distinctIncarnations workers (callers events))
    (h : withinEpochs config environment disk events) :
    ∀ call ∈ runCalls config environment disk workers events, ∀ d ∈ call.1, ∀ publish now,
      d.performs call.2 = some (.decisionPublish publish now) →
        ((d.coordinator.publishDecision publish now).2.accepted = true ↔
          d.coordinator.warrants publish now) ∧
        (∀ record ∈ d.coordinator.leases.entries, record.key = publish.lease.value →
          record.heldBy publish.boot publish.worker ∧ record.leaseSequence < publish.sequence) ∧
        ((d.coordinator.publishDecision publish now).2.accepted = false →
          d.coordinator.refusedFor publish now
            (d.coordinator.publishDecision publish now).2.reason) := by
  intro call hc d hcall publish now hs
  have hholds := calls_hold (ahead_rules hd) ahead_launch h
    (fun _ called sent hm => ⟨called, sent, hm⟩) hc d hcall
  have hshort := runCalls_published hc d hcall
  obtain ⟨id, input, stage, next, ⟨⟨hcoherent, hlevel⟩, hahead⟩, hturn⟩ :=
    hholds.turn (ahead_rules hd) hs rfl rfl
  obtain ⟨c, hl⟩ := launched_of_call hc hcall
  have hevents := h c hl
  have hlength : (d.processes id).published.length < 2 ^ 64 := by
    have hpublished := hshort id
    omega
  have hpasses : ∀ record, d.coordinator.leases.find publish.lease.value = some record →
      record.heldBy publish.boot publish.worker ∧ record.leaseSequence < publish.sequence :=
    fun record hfind => hcoherent.passes hholds.board hlevel hahead hturn rfl hlength hfind
  refine ⟨hcoherent.warranted hholds.board hlevel hahead hturn rfl hlength, fun record hm hkey => ?_,
    Coordinator.publishDecision_refusedFor hpasses⟩
  exact hpasses record (KeyedTable.find_eq_some.mpr ⟨hm, hkey⟩)

theorem run_decisions_accepted_iff_superseding :
    ∃ call ∈ runCalls {} {} none sampleWorkers superseding, ∃ d ∈ call.1, ∃ publish now,
      d.performs call.2 = some (.decisionPublish publish now) ∧
        (d.coordinator.publishDecision publish now).2.accepted = true ∧
        d.coordinator.warrants publish now := by
  -- the first decision is dispatched by the twenty-first event
  have hcall : (runTo {} {} none sampleWorkers (superseding.take 20),
      DeploymentEvent.session 0 { received := .ok {}, now := ⟨3000⟩ }) ∈
        runCalls {} {} none sampleWorkers superseding :=
    (mem_calls_iff step).mpr ⟨superseding.take 20, superseding.drop 21, rfl, rfl⟩
  have hdecides : (runTo {} {} none sampleWorkers (superseding.take 20)).any (fun d =>
      (d.performs (.session 0 { received := .ok {}, now := ⟨3000⟩ })).any fun s =>
        (d.coordinator.published s).any Prod.snd) = true := by
    decide +kernel
  obtain ⟨d, hd, hdispatched⟩ := (Option.any_eq_true _ _).mp hdecides
  obtain ⟨s, hs, hanswered⟩ := (Option.any_eq_true _ _).mp hdispatched
  cases s with
  | decisionPublish publish now =>
    have haccepted : (d.coordinator.publishDecision publish now).2.accepted = true := by
      simpa [Coordinator.published] using hanswered
    exact ⟨_, hcall, d, hd, publish, now, hs, haccepted,
      (run_decisions_accepted_iff {} {} none sampleWorkers superseding superseding_distinct
        superseding_within _ hcall d hd publish now hs).1.mp haccepted⟩
  | _ => cases hanswered

end Deployment

end IncastGovernor
