import IncastGovernor.Worker.Fence
import IncastGovernor.Worker.Delivery

/-! Succession of the decisions. Where no worker renews its lease, the epoch that a worker knows
never goes back, so a lease under which a decision was accepted stays live while the epoch lasts:
the decisions accepted for one destination under one epoch come from one incarnation. A renewal
takes the worker back to the epoch of its grant; its next decision is then late and revokes the
lease, and another incarnation takes over under the same epoch. -/

namespace IncastGovernor

open Foundation

open Coordinator (Section acceptedDecisions)

/-- The decisions accepted for one destination under one epoch come from one incarnation. -/
def decisionsFence (log : List (MessageDecisionPublish × Bool)) : Prop :=
  ∀ a ∈ acceptedDecisions log, ∀ b ∈ acceptedDecisions log,
    a.destination = b.destination → a.epoch = b.epoch → a.boot = b.boot ∧ a.worker = b.worker

instance (log : List (MessageDecisionPublish × Bool)) : Decidable (decisionsFence log) :=
  inferInstanceAs (Decidable (∀ a ∈ acceptedDecisions log, ∀ b ∈ acceptedDecisions log,
    a.destination = b.destination → a.epoch = b.epoch → a.boot = b.boot ∧ a.worker = b.worker))

namespace Coordinator

variable {c c' : Coordinator} {s : Section}

/-- The record is the live lease under which the decision was accepted. -/
def warrantedBy (publish : MessageDecisionPublish) (record : LeaseRecord) : Prop :=
  record.live ∧ record.key = publish.lease.value ∧ record.heldBy publish.boot publish.worker ∧
    record.grant.destination = publish.destination

/-- The lease of a decision of the current epoch stays live, but for a late decision. -/
theorem warranted_step (h : Sound c) (hs : c.perform s = some c') (ha : ¬c.advances s)
    {publish : MessageDecisionPublish} {a : LeaseRecord} (hm : a ∈ c.leases.entries)
    (hw : warrantedBy publish a)
    (hlate : ∀ late now, s = .decisionPublish late now → a.key = late.lease.value →
      late.epoch = c.epoch) :
    ∃ b ∈ c'.leases.entries, warrantedBy publish b := by
  obtain ⟨hlive, hkey, ⟨hboot, hworker⟩, hdestination⟩ := hw
  obtain ⟨b, hb, hab⟩ := ((perform_tableStep h s hs).later h).kept a hm
  refine ⟨b, hb, ?_, hab.key.trans hkey, ⟨hab.boot.trans hboot, hab.worker.trans hworker⟩,
    hab.destination.trans hdestination⟩
  by_contra hdead
  obtain ⟨x, hx, hgrant, hcause⟩ := perform_revokedBefore h hs ha hb hdead
  have hxkey : x.key = a.key :=
    (congrArg (fun grant : MessageLeaseGrant => grant.lease.value) hgrant).trans hab.key
  obtain rfl := KeyedTable.eq_of_key_eq hx hm hxkey
  rcases hcause with hrevoked | ⟨late, now, hpublish, hother, hnamed⟩
  · exact hrevoked hlive
  · exact hother (hlate late now hpublish hnamed)

/-- An accepted decision leaves its lease live. -/
theorem accepted_warranted {publish : MessageDecisionPublish} {now : Timestamp}
    (h : (c.publishDecision publish now).2.accepted = true)
    (hd : ∀ record ∈ c.leases.entries, record.key = publish.lease.value →
      record.grant.destination = publish.destination) :
    publish.epoch = c.epoch ∧ (∃ a ∈ c.leases.entries, warrantedBy publish a) ∧
      ∃ b ∈ (c.publishDecision publish now).1.leases.entries, warrantedBy publish b := by
  obtain ⟨record, hfind, hrefusal⟩ := accepted_iff.mp h
  obtain ⟨hm, hkey⟩ := KeyedTable.find_eq_some.mp hfind
  obtain ⟨hlive, hepoch, hboot, hworker, -, -⟩ := publishRefusal_eq_none.mp hrefusal
  have hdecided : c.publishRecord publish now record = record.decided publish := by
    unfold publishRecord
    rw [if_neg fun hc => hc.2 hepoch, if_pos hrefusal]
  refine ⟨hepoch, ⟨record, hm, hlive, hkey, ⟨hboot, hworker⟩, hd record hm hkey⟩,
    record.decided publish, publishDecision_mem.mpr ⟨record, hm, ?_⟩, hlive, hkey,
    ⟨hboot, hworker⟩, hd record hm hkey⟩
  rw [if_pos hkey, hdecided]

end Coordinator

/-! ### Workers that do not renew -/

/-- A reply but one to a renewal takes no worker back in the epoch. -/
theorem GovernorWorker.Synced.onward {c c' : Coordinator} {w : GovernorWorker} (h : w.Synced c)
    (hc : Coordinator.Sound c) {input : Input} {call : Call} (hcall : call ≠ .renewLease)
    (hs : c.perform (w.dispatched input call) = some c') (hw : ¬c.wrapsEpoch (w.dispatched input call))
    {frame : Frame} (hr : c.replyFrame (w.dispatched input call) = some frame) :
    w.epoch.value.toNat ≤ (w.settle call (.ok frame)).1.epoch.value.toNat := by
  have hnext := h.epoch_le.trans (Coordinator.epoch_le_of_not_wraps hc hs hw)
  cases call with
  | renewLease => exact absurd rfl hcall
  | connectAndHandshake =>
    obtain rfl := Option.some.inj hr
    rw [settle_hello]
    exact h.epoch_le
  | acquireLease =>
    obtain ⟨grant, hg, rfl⟩ := Option.map_eq_some_iff.mp hr
    obtain ⟨-, -, -, -, hepoch⟩ := Coordinator.leased_terms hc hs hg
    rw [settle_grant w (Or.inl rfl)]
    show w.epoch.value.toNat ≤ grant.epoch.value.toNat
    rw [hepoch]
    exact hnext
  | publish decision =>
    obtain rfl := Option.some.inj hr
    rw [settle_ack]
    unfold acknowledged
    split_ifs
    · show w.epoch.value.toNat ≤ (c.publishDecision _ _).2.currentEpoch.value.toNat
      rw [Coordinator.publishDecision_currentEpoch]
      exact h.epoch_le
    · exact le_refl _
  | sendHeartbeat =>
    obtain rfl := Option.some.inj hr
    rw [settle_heartbeat]
    split_ifs
    · exact h.epoch_le
    · exact le_refl _

/-- No reply that a turn composes takes the worker back, if it does not renew. -/
theorem Process.Agrees.onward {c c' : Coordinator} {p : Process} {stage next : Stage} {input : Input}
    {o : Option Section} (h : p.Agrees c stage) (hc : Coordinator.Sound c)
    (hrenews : p.calling ≠ some .renewLease)
    (hsettles : ∀ call frame, p.calling = some call →
      stage = .composed frame ∨ stage = .replied frame →
        p.worker.epoch.value.toNat ≤ (p.worker.settle call (.ok frame)).1.epoch.value.toNat)
    (hturn : Turn c input stage o next) (hw : ∀ s ∈ o, keepsEpoch c s)
    (hp : Server.performed c o = some c') :
    ∀ call frame, p.calling = some call → next = .composed frame ∨ next = .replied frame →
      p.worker.epoch.value.toNat ≤ (p.worker.settle call (.ok frame)).1.epoch.value.toNat := by
  intro call frame hcalling hnext
  cases hturn with
  | rested _ _ operates => exact hsettles call frame hcalling hnext
  | dropped _ _ operates => simp at hnext
  | denied requested request error refused dispatched denies => simp at hnext
  | sent composed _ operates =>
    obtain rfl : composed = frame := by simpa using hnext
    exact hsettles call composed hcalling (Or.inl rfl)
  | counted error =>
    obtain rfl : Coordinator.deniedFrame (c.denyLease error).2 = frame := by simpa using hnext
    cases h with
    | resting _ calling quiet synced => simp at quiet
    | denying _ calling synced =>
      obtain rfl := Option.some.inj (calling.symm.trans hcalling)
      rw [p.worker.settle_denied (Or.inl rfl)]
      exact synced.epoch_le
  | served requested reply s dispatched replies =>
    obtain rfl : reply = frame := by simpa using hnext
    cases h with
    | resting _ calling quiet synced => simp at quiet
    | requested called calling synced =>
      obtain rfl := Option.some.inj (calling.symm.trans hcalling)
      rw [p.worker.section_frame] at dispatched
      obtain rfl := Option.some.inj dispatched
      have hcall : called ≠ .renewLease := fun heq => hrenews (heq ▸ calling)
      exact synced.onward hc hcall hp (hw _ rfl) replies

/-- A process whose decisions were accepted under epochs that its worker has not left behind: no
reply on its way takes it back. -/
structure Process.Onward (workers : ℕ → WorkerConfig) (ids : Set ℕ) (id : ℕ) (b : Board)
    (p : Process) (stage : Stage) : Prop where
  renews : p.calling ≠ some .renewLease
  decided : id ∈ ids → ∀ publish ∈ acceptedDecisions b.decisions, (workers id).sends publish →
    publish.epoch.value.toNat ≤ p.worker.epoch.value.toNat
  settles : ∀ call frame, p.calling = some call → stage = .composed frame ∨ stage = .replied frame →
    p.worker.epoch.value.toNat ≤ (p.worker.settle call (.ok frame)).1.epoch.value.toNat

/-- The accepted decisions are of epochs that were, those of the current one are held by live
leases, and they fence. -/
structure Board.Succeeded (b : Board) : Prop where
  past : ∀ publish ∈ acceptedDecisions b.decisions,
    publish.epoch.value.toNat ≤ b.coordinator.epoch.value.toNat
  warranted : ∀ publish ∈ acceptedDecisions b.decisions, publish.epoch = b.coordinator.epoch →
    ∃ record ∈ b.coordinator.leases.entries, Coordinator.warrantedBy publish record
  fence : decisionsFence b.decisions

section Rules

variable {workers : ℕ → WorkerConfig} {ids : Set ℕ} {b : Board} {c' : Coordinator} {id : ℕ}
  {p : Process} {stage next : Stage} {input : Input} {o : Option Section} {s : Section}

/-- The calls of workers that do not renew. -/
def madeOnward (ids : Set ℕ) (id : ℕ) (call : Call) : Prop := id ∈ ids ∧ call ≠ .renewLease

theorem coherent_onward_rules (hd : distinctIncarnations workers ids) :
    Rules Board.Coherent (Process.Coherent workers ids) keepsEpoch (madeOnward ids) :=
  (coherent_rules hd).made fun _ _ h => h.1

/-- What a section adds to the accepted decisions. -/
theorem mem_accepted_advance {publish : MessageDecisionPublish}
    (h : publish ∈ acceptedDecisions (b.advance c' o).decisions) :
    publish ∈ acceptedDecisions b.decisions ∨ ∃ now, .decisionPublish publish now ∈ o ∧
      (b.coordinator.publishDecision publish now).2.accepted = true := by
  rw [Board.advance_decisions, Coordinator.acceptedDecisions_append, List.mem_append] at h
  refine h.imp_right fun hnew => ?_
  cases o with
  | none => cases hnew
  | some s =>
    rw [Option.toList_some, List.flatMap_singleton] at hnew
    rcases Coordinator.acceptedDecisions_published b.coordinator s with
      he | ⟨decided, now, rfl, ha, he⟩
    · rw [he] at hnew
      cases hnew
    · rw [he] at hnew
      obtain rfl := List.mem_singleton.mp hnew
      exact ⟨now, rfl, ha⟩

theorem onward_adds (hd : distinctIncarnations workers ids) :
    Rules.Adds Board.Coherent (Process.Coherent workers ids) (Process.Onward workers ids) keepsEpoch
      (madeOnward ids) where
  operated := by
    rintro b s c' id p stage hb ho hw hp hcoherent h
    refine ⟨h.renews, fun hid publish hm hsends => ?_, h.settles⟩
    rcases mem_accepted_advance hm with hold | ⟨now, hs, -⟩
    · exact h.decided hid publish hold hsends
    · obtain rfl := Option.some.inj hs
      cases ho
  turned := by
    rintro b input o c' id p stage next hb hcoherent h hturn hw hp
    refine ⟨h.renews, fun hid publish hm hsends => ?_, ?_⟩
    · rcases mem_accepted_advance hm with hold | ⟨now, hs, -⟩
      · exact h.decided hid publish hold hsends
      · obtain ⟨decision, -, -, rfl, -⟩ := hcoherent.agrees.turn_decides hturn hs
        exact le_refl _
    · exact hcoherent.agrees.onward hb.sound h.renews h.settles hturn hw hp
  other := by
    rintro b input o c' id p stage next id' p' stage' hb hcoherent hturn hw hp hne hcoherent' h
    refine ⟨h.renews, fun hid' publish hm hsends => ?_, h.settles⟩
    rcases mem_accepted_advance hm with hold | ⟨now, hs, -⟩
    · exact h.decided hid' publish hold hsends
    · obtain ⟨decision, hcalling, -, rfl, -⟩ := hcoherent.agrees.turn_decides hturn hs
      have hid : id ∈ ids := hcoherent.caller (by rw [hcalling]; exact Option.some_ne_none _)
      obtain ⟨hboot, hworker⟩ := hsends
      change p.worker.config.boot = _ at hboot
      change p.worker.config.worker = _ at hworker
      rw [hcoherent.config] at hboot hworker
      exact absurd (hd hid' hid (Prod.ext hboot.symm hworker.symm)) hne
  started := by
    rintro b id p stage call sent hb hcoherent h hfree ⟨hid, hcall⟩ hchecks
    have hquiet := (hcoherent.agrees.resting_of_idle hfree.1).1
    refine ⟨fun heq => hcall (Option.some.inj heq), fun hid publish hm hsends => ?_, ?_⟩
    · exact (h.decided hid publish hm hsends).trans (by cases call <;> exact le_refl _)
    · rintro called frame - hstage
      rcases hquiet with rfl | rfl <;> cases call <;> cases sent <;>
        simp [Process.startStage] at hstage
  failed := by
    rintro b id p stage call error hb hcoherent h hcalling hrunning
    exact ⟨h.renews, h.decided, h.settles⟩
  finished := by
    rintro b id p call frame hb hcoherent h hcalling hrunning
    cases hcoherent.agrees with
    | resting _ calling quiet _ => simp at quiet
    | replied call' _ calling settles =>
      obtain rfl := Option.some.inj (calling.symm.trans hcalling)
      rw [p.finish_answered settles.1]
      have hdecided : id ∈ ids → ∀ publish ∈ acceptedDecisions b.decisions,
          (workers id).sends publish → publish.epoch.value.toNat ≤
            (p.worker.settle call' (.ok frame)).1.epoch.value.toNat := fun hid publish hm hsends =>
        (h.decided hid publish hm hsends).trans (h.settles call' frame hcalling (Or.inr rfl))
      exact ⟨⟨by rintro ⟨⟩, hdecided, by rintro call frame ⟨⟩⟩,
        ⟨by rintro ⟨⟩, hdecided, by rintro call frame ⟨⟩⟩⟩
  refused := by
    rintro b id p call error hb hcoherent h hcalling hrunning
    rw [p.finish_error]
    exact ⟨h.renews, h.decided, h.settles⟩
  closed := by
    rintro b id p stage hb hcoherent h hfree
    refine ⟨h.renews, h.decided, fun call frame hcalling => ?_⟩
    rw [show p.calling = none from hfree.1] at hcalling
    cases hcalling

/-- The destination of a decision is that of the lease it names. -/
theorem Process.Coherent.decides (hb : b.Coherent) (h : p.Coherent workers ids id b stage)
    (hturn : Turn b.coordinator input stage o next) {publish : MessageDecisionPublish}
    {now : Timestamp} (hs : .decisionPublish publish now ∈ o) {record : LeaseRecord}
    (hm : record ∈ b.coordinator.leases.entries) (hk : record.key = publish.lease.value) :
    id ∈ ids ∧ record.heldBy (workers id).boot (workers id).worker ∧
      publish.epoch = p.worker.epoch ∧ record.grant.destination = publish.destination := by
  obtain ⟨decision, hcalling, -, rfl, hsynced⟩ := h.agrees.turn_decides hturn hs
  obtain ⟨⟨hboot, hworker, hdestination⟩, hgrant⟩ := hsynced.record hb.positive hm hk
  rw [← hgrant] at hboot hworker hdestination
  refine ⟨h.caller (by rw [hcalling]; exact Option.some_ne_none _), ?_, rfl, hdestination⟩
  rw [← h.config]
  exact ⟨hboot, hworker⟩

/-- What the rule for decisions asks of the section that a process or an operator performs. -/
structure Board.Regards (b : Board) (s : Section) : Prop where
  destination : ∀ publish now, s = .decisionPublish publish now →
    ∀ record ∈ b.coordinator.leases.entries, record.key = publish.lease.value →
      record.grant.destination = publish.destination
  late : ∀ late now, s = .decisionPublish late now → ∀ publish ∈ acceptedDecisions b.decisions,
    publish.epoch = b.coordinator.epoch → ∀ record ∈ b.coordinator.leases.entries,
      Coordinator.warrantedBy publish record → record.key = late.lease.value →
        late.epoch = b.coordinator.epoch

theorem regards_of_arises (hb : b.Coherent)
    (h : Arises
      (fun id b p stage => p.Coherent workers ids id b stage ∧ p.Onward workers ids id b stage) b
      (some s)) : b.Regards s := by
  cases h with
  | operated operates =>
    refine ⟨?_, ?_⟩ <;> rintro publish now rfl <;> cases operates _ rfl
  | turned id p stage next input process turn =>
    obtain ⟨hcoherent, honward⟩ := process
    refine ⟨?_, ?_⟩
    · rintro publish now rfl record hm hk
      exact (hcoherent.decides hb turn rfl hm hk).2.2.2
    · rintro late now rfl publish hpublish hepoch record hm ⟨-, -, ⟨hboot, hworker⟩, -⟩ hk
      obtain ⟨hid, ⟨hboot', hworker'⟩, hlate, -⟩ := hcoherent.decides hb turn rfl hm hk
      have hle := honward.decided hid publish hpublish
        ⟨hboot.symm.trans hboot', hworker.symm.trans hworker'⟩
      have hge := hcoherent.epoch_le
      rw [hepoch] at hle
      rw [hlate]
      exact EpochId.ext (UInt64.toNat_inj.mp (le_antisymm hge hle))

/-- An accepted decision comes from the incarnation of every one accepted before it for the
destination under the epoch. -/
theorem Board.Succeeded.follows (hb : b.Coherent) (h : b.Succeeded)
    {publish earlier : MessageDecisionPublish} {now : Timestamp}
    (ha : (b.coordinator.publishDecision publish now).2.accepted = true)
    (hr : b.Regards (.decisionPublish publish now)) (hm : earlier ∈ acceptedDecisions b.decisions)
    (hd : publish.destination = earlier.destination) (he : publish.epoch = earlier.epoch) :
    publish.boot = earlier.boot ∧ publish.worker = earlier.worker := by
  obtain ⟨hepoch, ⟨x, hx, hlive, -, hheld, hdestination⟩, -⟩ :=
    Coordinator.accepted_warranted ha (hr.destination publish now rfl)
  obtain ⟨y, hy, hlive', -, hheld', hdestination'⟩ := h.warranted earlier hm (he.symm.trans hepoch)
  have hkey := hb.sound.exclusive x hx y hy hlive hlive'
    (hdestination.trans (hd.trans hdestination'.symm))
  obtain rfl := KeyedTable.eq_of_key_eq hx hy hkey
  exact ⟨hheld.1.symm.trans hheld'.1, hheld.2.symm.trans hheld'.2⟩

theorem Board.Succeeded.advance (hb : b.Coherent) (h : b.Succeeded)
    (hw : ∀ s ∈ o, keepsEpoch b.coordinator s) (hp : Server.performed b.coordinator o = some c')
    (ho : ∀ s ∈ o, b.Regards s) : (b.advance c' o).Succeeded := by
  have hgrows := hb.epoch_le hw hp
  refine ⟨fun publish hm => ?_, fun publish hm he => ?_, fun x hx y hy hd he => ?_⟩
  · rw [Board.advance_coordinator]
    rcases mem_accepted_advance hm with hold | ⟨now, hs, ha⟩
    · exact (h.past publish hold).trans hgrows
    · rw [(Coordinator.accepted_warranted ha ((ho _ hs).destination publish now rfl)).1]
      exact hgrows
  · rw [Board.advance_coordinator] at he ⊢
    cases o with
    | none =>
      obtain rfl := Option.some.inj hp
      exact h.warranted publish hm he
    | some s =>
      have hs : b.coordinator.perform s = some c' := hp
      have hbound : publish.epoch.value.toNat ≤ b.coordinator.epoch.value.toNat := by
        rcases mem_accepted_advance hm with hold | ⟨now, hs, ha⟩
        · exact h.past publish hold
        · rw [(Coordinator.accepted_warranted ha ((ho _ hs).destination publish now rfl)).1]
      rcases Coordinator.perform_epoch hb.sound hs with ⟨ha, hnext⟩ | ⟨ha, hsame⟩
      · -- an advance leaves every decision behind
        rw [he, hnext, Coordinator.next_toNat fun hmax => hw s rfl ⟨ha, hmax⟩] at hbound
        exact absurd hbound (Nat.not_succ_le_self _)
      · rw [hsame] at he
        rcases mem_accepted_advance hm with hold | ⟨now, hnow, haccepted⟩
        · obtain ⟨record, hrecord, hwarranted⟩ := h.warranted publish hold he
          exact Coordinator.warranted_step hb.sound hs ha hrecord hwarranted fun late now hlate hk =>
            (ho s rfl).late late now hlate publish hold he record hrecord hwarranted hk
        · obtain rfl := Option.some.inj hnow
          obtain rfl := Option.some.inj hs
          exact (Coordinator.accepted_warranted haccepted
            ((ho _ rfl).destination publish now rfl)).2.2
  · rcases mem_accepted_advance hx with hx | ⟨now, hs, ha⟩ <;>
      rcases mem_accepted_advance hy with hy | ⟨now', hs', ha'⟩
    · exact h.fence x hx y hy hd he
    · obtain ⟨hboot, hworker⟩ := h.follows hb ha' (ho _ hs') hx hd.symm he.symm
      exact ⟨hboot.symm, hworker.symm⟩
    · exact h.follows hb ha (ho _ hs) hy hd he
    · obtain ⟨rfl, -⟩ :=
        Section.decisionPublish.inj (Option.some.inj (Eq.trans (Eq.symm hs) hs'))
      exact ⟨rfl, rfl⟩

theorem succeeded_rules (hd : distinctIncarnations workers ids) :
    Rules (fun b => b.Coherent ∧ b.Succeeded)
      (fun id b p stage => p.Coherent workers ids id b stage ∧ p.Onward workers ids id b stage)
      keepsEpoch (madeOnward ids) :=
  ((coherent_onward_rules hd).add (onward_adds hd)).board fun _ _ _ hb hs hw hp ho =>
    hs.advance hb hw hp fun _ hm => regards_of_arises hb (hm ▸ ho)

end Rules

namespace Deployment

variable {config : CoordinatorConfig} {environment : Coordinator.StartEnvironment}
  {disk : Option Text} {workers : ℕ → WorkerConfig} {ids : Set ℕ}

theorem succeeded_launch : ∀ d ∈ launch config environment disk workers,
    Holds (fun b => b.Coherent ∧ b.Succeeded)
      (fun id b p stage => p.Coherent workers ids id b stage ∧ p.Onward workers ids id b stage) d := by
  rintro d hd
  obtain ⟨hboard, hprocesses⟩ := @coherent_launch config environment disk workers ids d hd
  obtain ⟨c, hc, rfl⟩ := launch_eq_some hd
  refine ⟨⟨hboard, ?_, ?_, ?_⟩, fun id => ?_⟩
  · intro publish hm
    cases hm
  · intro publish hm
    cases hm
  · intro x hx
    cases hx
  · obtain ⟨stage, hwires, hcoherent⟩ := hprocesses id
    refine ⟨stage, hwires, hcoherent, by rintro ⟨⟩, ?_, by rintro call frame ⟨⟩⟩
    intro hid publish hm
    cases hm

/-- Where no worker renews, the decisions fence like the grants: over every interleaving, those
accepted for one destination under one epoch come from one incarnation. -/
theorem run_decisions_fence (config : CoordinatorConfig) (environment : Coordinator.StartEnvironment)
    (disk : Option Text) (workers : ℕ → WorkerConfig) (events : List DeploymentEvent)
    (hd : distinctIncarnations workers (callers events))
    (h : withinEpochs config environment disk events)
    (hr : ∀ id sent, .call id .renewLease sent ∉ events) :
    ∀ d ∈ runTo config environment disk workers events, decisionsFence d.decisions := by
  intro d hrun
  have hmade : ∀ id call sent, .call id call sent ∈ events →
      madeOnward (callers events) id call := by
    intro id call sent hm
    refine ⟨⟨call, sent, hm⟩, fun hrenew => ?_⟩
    rw [hrenew] at hm
    exact hr id sent hm
  exact (run_holds (succeeded_rules hd) succeeded_launch h hmade d hrun).board.2.fence

theorem run_decisions_fence_superseding :
    ∃ d, runTo {} {} none sampleWorkers superseding = some d ∧
      (acceptedDecisions d.decisions).length = 2 ∧ decisionsFence d.decisions := by
  obtain ⟨d, hd, haccepted⟩ :=
    sample_meets superseding (fun d => (acceptedDecisions d.decisions).length = 2) (by decide +kernel)
  exact ⟨d, hd, of_decide_eq_true haccepted,
    run_decisions_fence {} {} none sampleWorkers superseding superseding_distinct
      superseding_within (by simp [superseding, undisturbed]) d hd⟩

/-- A holder of the lease learns of a later epoch, publishes under it, renews and publishes again;
another takes over and publishes. -/
def renewing : List DeploymentEvent :=
  undisturbed 0 .connectAndHandshake ⟨1000⟩ ++ undisturbed 0 .acquireLease ⟨2000⟩ ++
    [.operate (.advanceEpoch none)] ++ undisturbed 0 .sendHeartbeat ⟨3000⟩ ++
    undisturbed 0 (.publish {}) ⟨4000⟩ ++ undisturbed 0 .renewLease ⟨5000⟩ ++
    undisturbed 0 (.publish {}) ⟨6000⟩ ++ undisturbed 1 .connectAndHandshake ⟨7000⟩ ++
    undisturbed 1 .acquireLease ⟨8000⟩ ++ undisturbed 1 (.publish {}) ⟨9000⟩

/-- A renewal breaks the fence of the decisions. -/
theorem renewal_breaks_decisions_fence :
    ∃ d, runTo {} {} none sampleWorkers renewing = some d ∧ ¬decisionsFence d.decisions := by
  obtain ⟨d, hd, hbroken⟩ :=
    sample_meets renewing (fun d => ¬decisionsFence d.decisions) (by decide +kernel)
  exact ⟨d, hd, of_decide_eq_true hbroken⟩

end Deployment

end IncastGovernor
