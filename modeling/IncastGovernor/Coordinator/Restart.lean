import IncastGovernor.Coordinator.Fencing

/-! Coordinators that come up one after the other on one directory. The ledger file
outlives a crash. A coordinator starts past every epoch granted before as long as each
grant's epoch is in the file when the grant is sent; the epoch that RevokeAll advances
to, or that a failed write leaves in memory, is not. -/

namespace IncastGovernor

open Foundation

theorem EpochId.lt_iff {a b : EpochId} : a < b ↔ a.value.toNat < b.value.toNat := Iff.rfl

/-- An epoch that can be stored is past the one before. -/
theorem EpochId.lt_next {e : EpochId} (h : e.next.valid) : e < e.next := by
  have hne : e.value ≠ u64Max := fun hmax => h (by rw [EpochId.next, hmax]; rfl)
  rw [EpochId.lt_iff, Coordinator.next_toNat hne]
  exact Nat.lt_succ_self _

/-- A running coordinator, with the epoch it started with and the grants it sent. -/
structure Incarnation where
  coordinator : Coordinator
  startEpoch : EpochId
  grants : List MessageLeaseGrant := []

/-- The ledger file of a directory, the coordinator that runs on it, and the grants of
those that ran before. -/
structure World where
  disk : Option Text := none
  running : Option Incarnation := none
  past : List MessageLeaseGrant := []

/-- A crash may come between two sections, or in a section or a start after its last
write and before its reply; a write that does not get through is a fault of the section. -/
inductive Event where
  | start (environment : Coordinator.StartEnvironment)
  | serve (s : Coordinator.Section)
  | crash
  | crashDuring (s : Coordinator.Section)
  | crashStarting (environment : Coordinator.StartEnvironment)

namespace Coordinator

/-- The ledger file after a section. The one section that can end the process stores the
epoch before it enters the lease. -/
def fileAfter (c : Coordinator) (s : Section) : Option Text :=
  match c.perform s, s with
  | some c', _ => c'.ledger.file
  | none, .leaseRequest request now order fault =>
    if (c.claimRecords request now (order.order c.leases.entries)).2.1 then
      ((c.claimed request now order).advanceEpoch fault).1.ledger.file
    else c.ledger.file
  | none, _ => c.ledger.file

end Coordinator

namespace World

open Coordinator

/-- The running coordinator is gone, its grants are of the past. -/
def crash (w : World) (disk : Option Text) (i : Incarnation) : World :=
  { disk, past := i.grants ++ w.past }

def step (config : CoordinatorConfig) (w : World) (e : Event) : World :=
  match w.running, e with
  | none, .start environment =>
    match launch config environment w.disk with
    | some c => { w with disk := c.ledger.file, running := some ⟨c, c.epoch, []⟩ }
    | none => w
  | none, .crashStarting environment =>
    match launch config environment w.disk with
    | some c => { w with disk := c.ledger.file }
    | none => w
  | some i, .serve s =>
    match i.coordinator.perform s with
    | some c =>
      { w with
        disk := c.ledger.file
        running := some { i with
          coordinator := c
          grants := (i.coordinator.granted s).toList ++ i.grants } }
    | none => w.crash (i.coordinator.fileAfter s) i
  | some i, .crash => w.crash w.disk i
  | some i, .crashDuring s => w.crash (i.coordinator.fileAfter s) i
  | _, _ => w

/-- The running coordinator started past every epoch granted before it, and what it
grants is past them too. -/
def epochsNotReused (w : World) : Prop :=
  ∀ i ∈ w.running, ∀ grant ∈ w.past, grant.epoch < i.startEpoch ∧
    ∀ own ∈ i.grants, grant.epoch < own.epoch

instance (w : World) : Decidable w.epochsNotReused :=
  inferInstanceAs (Decidable (∀ i ∈ w.running, ∀ grant ∈ w.past, grant.epoch < i.startEpoch ∧
    ∀ own ∈ i.grants, grant.epoch < own.epoch))

end World

namespace Coordinator

variable {c c' : Coordinator}

/-! ### The ledger of a section -/

/-- A section leaves the ledger file or stores the next epoch in it. -/
structure LedgerStep (c c' : Coordinator) : Prop where
  opened : c'.ledgerOpen = c.ledgerOpen
  path : c'.ledger.path = c.ledger.path
  file : c'.ledger.file = c.ledger.file ∨
    c'.epoch = c.epoch.next ∧ c.epoch.next.valid ∧ c'.ledger.holds c.epoch.next

theorem LedgerStep.file_cases (h : LedgerStep c c') :
    c'.ledger.file = c.ledger.file ∨ c.epoch.next.valid ∧ c'.ledger.holds c.epoch.next :=
  h.file.imp_right fun h => h.2

theorem LedgerStep.of_ledger (ho : c'.ledgerOpen = c.ledgerOpen) (hl : c'.ledger = c.ledger) :
    LedgerStep c c' := ⟨ho, by rw [hl], Or.inl (by rw [hl])⟩

theorem ledgerStep_advanceEpoch (c : Coordinator) (fault : Option AtomicWriteFault) :
    LedgerStep c (c.advanceEpoch fault).1 := by
  unfold advanceEpoch persistEpoch
  by_cases ho : c.bumpEpoch.ledgerOpen = true
  · rw [if_pos ho]
    refine ⟨rfl, EpochLedger.store_path _ _ _, ?_⟩
    by_cases hp : c.ledger.path = []
    · refine Or.inl ?_
      show (c.ledger.store c.epoch.next fault).2.file = c.ledger.file
      rw [EpochLedger.store, if_pos hp]
    · rcases EpochLedger.store_spec c.ledger c.epoch.next fault hp with ⟨-, hv, hh⟩ | ⟨-, hl⟩
      · exact Or.inr ⟨rfl, hv, hh⟩
      · exact Or.inl (congrArg EpochLedger.file hl)
  · rw [if_neg ho]
    exact LedgerStep.of_ledger rfl rfl

/-- An advance that succeeds has stored the epoch it advanced to. -/
theorem advanceEpoch_stored (ho : c.ledgerOpen = true) (hp : c.ledger.path ≠ [])
    {fault : Option AtomicWriteFault} (h : (c.advanceEpoch fault).2 = .ok ()) :
    (c.advanceEpoch fault).1.ledger.holds c.epoch.next := by
  have hopen : c.bumpEpoch.ledgerOpen = true := ho
  unfold advanceEpoch persistEpoch at h ⊢
  rw [if_pos hopen] at h ⊢
  rcases EpochLedger.store_spec c.ledger c.epoch.next fault hp with ⟨-, -, hh⟩ | ⟨hfail, -⟩
  · exact hh
  · exact absurd h hfail

theorem publishDecision_ledger (c : Coordinator) (publish : MessageDecisionPublish)
    (now : Timestamp) : LedgerStep c (c.publishDecision publish now).1 := by
  unfold publishDecision
  simp only
  split
  · exact LedgerStep.of_ledger rfl rfl
  · split <;> exact LedgerStep.of_ledger rfl rfl

theorem perform_ledger (h : Sound c) {s : Section} (hs : c.perform s = some c') :
    LedgerStep c c' := by
  cases s with
  | leaseRequest request now order fault =>
    have hby := leaseRequest_by h.exclusive hs
    generalize c.granted (.leaseRequest request now order fault) = sent at hby
    have hadvance := ledgerStep_advanceEpoch (c.claimed request now order) fault
    cases hby with
    | unpersisted => exact ⟨hadvance.opened, hadvance.path, hadvance.file⟩
    | superseding => exact ⟨hadvance.opened, hadvance.path, hadvance.file⟩
    | _ => exact LedgerStep.of_ledger rfl rfl
  | leaseRenew renew now =>
    obtain rfl := Option.some.inj hs
    rcases renewLease_cases c renew now with ⟨denied, hr⟩ | ⟨record, -, -, -, -, hr⟩ <;> rw [hr]
    · exact LedgerStep.of_ledger rfl rfl
    · exact LedgerStep.of_ledger rfl rfl
  | decisionPublish publish now =>
    obtain rfl := Option.some.inj hs
    exact publishDecision_ledger c publish now
  | control request fault =>
    obtain rfl := Option.some.inj hs
    have hby := handleControl_by c request fault
    generalize (c.handleControl request fault).1 = next at hby
    cases hby with
    | unchanged other => exact LedgerStep.of_ledger rfl rfl
    | advanced accepted opcode => exact ledgerStep_advanceEpoch c fault
    | revoked accepted opcode => exact LedgerStep.of_ledger rfl rfl
  | advanceEpoch fault =>
    obtain rfl := Option.some.inj hs
    exact ledgerStep_advanceEpoch c fault
  | _ =>
    obtain rfl := Option.some.inj hs
    exact LedgerStep.of_ledger rfl rfl

/-- Whatever becomes of the process, the file is left or holds the next epoch. -/
theorem fileAfter_cases (h : Sound c) (s : Section) :
    c.fileAfter s = c.ledger.file ∨
      c.epoch.next.valid ∧ c.fileAfter s = some (encodeLedger c.epoch.next) := by
  cases hp : c.perform s with
  | some c' =>
    rw [show c.fileAfter s = c'.ledger.file by unfold fileAfter; rw [hp]]
    exact (perform_ledger h hp).file_cases
  | none =>
    cases s with
    | leaseRequest request now order fault =>
      unfold fileAfter
      rw [hp]
      simp only
      split_ifs
      · exact (ledgerStep_advanceEpoch (c.claimed request now order) fault).file_cases
      · exact Or.inl rfl
    | _ => cases hp

/-- A grant that came with an advance has its epoch in the file. -/
theorem granted_stored (h : Sound c) (ho : c.ledgerOpen = true) (hp : c.ledger.path ≠ [])
    {request : MessageLeaseRequest} {now : Timestamp} {order : Enumeration LeaseRecord}
    {fault : Option AtomicWriteFault}
    (ha : c.advances (.leaseRequest request now order fault))
    (hs : c.perform (.leaseRequest request now order fault) = some c') {grant : MessageLeaseGrant}
    (hg : c.granted (.leaseRequest request now order fault) = some grant) :
    c'.ledger.holds c'.epoch := by
  have hby := leaseRequest_by h.exclusive hs
  obtain ⟨-, foreign, hfm, hfc, hfh⟩ := ha
  rw [hg] at hby
  cases hby with
  | refreshed hv record mem hcl hh =>
    exact absurd hh (h.foreign_of_foreign hfm hfc hfh mem hcl)
  | superseding hv record mem hcl hf stored =>
    have hholds := @advanceEpoch_stored (c.claimed request now order) ho hp fault stored
    have hepoch := advanceEpoch_epoch (c.claimed request now order) fault
    show ((c.claimed request now order).advanceEpoch fault).1.ledger.holds
      ((c.claimed request now order).advanceEpoch fault).1.epoch
    rw [hepoch]
    exact hholds
  | fresh hv hfree => exact absurd hfc (hfree foreign hfm)

/-! ### The epoch of a start -/

theorem create_epoch_valid (config : CoordinatorConfig) : (create config).epoch.valid := by
  unfold create
  simp only
  split_ifs with hv
  · exact hv
  · decide

/-- A coordinator resumes past the epoch it found, if it can store the one it resumes at. -/
theorem lt_resumeEpoch (hc : c.epoch.valid) {persisted : EpochId}
    (hv : (c.resumeEpoch persisted).valid) : persisted < c.resumeEpoch persisted := by
  unfold resumeEpoch at hv ⊢
  split_ifs at hv ⊢ with hle
  · exact EpochId.lt_next hv
  · rw [EpochId.lt_iff]
    by_cases hp : persisted.valid
    · have hnot : ¬c.epoch.value.toNat ≤ persisted.value.toNat := fun h => hle ⟨hp, h⟩
      omega
    · have hzero : persisted.value = 0 := not_not.mp hp
      have hne : c.epoch.value.toNat ≠ 0 := fun h => hc (UInt64.toNat_inj.mp h)
      rw [hzero]
      exact Nat.pos_of_ne_zero hne

theorem openIn_ok {directory : Text} {created : Bool} {disk : Option Text} {ledger : EpochLedger}
    (h : EpochLedger.openIn directory created disk = .ok ledger) :
    directory ≠ [] ∧ ledger = { path := directory ++ ascii "/coordinator.epoch", file := disk } := by
  unfold EpochLedger.openIn at h
  by_cases hd : directory = []
  · rw [if_pos hd] at h
    cases h
  rw [if_neg hd] at h
  cases created with
  | false => cases h
  | true => exact ⟨hd, (Except.ok.inj h).symm⟩

/-- What a load returns is what the file holds. -/
theorem load_held {ledger : EpochLedger} {readable : Bool} {persisted e : EpochId}
    (h : ledger.load readable = .ok persisted) (he : ledger.holds e) : persisted = e := by
  have hp : ledger.path ≠ [] := by
    intro hp
    rw [EpochLedger.load, if_pos hp] at h
    cases h
  cases readable with
  | true => exact Except.ok.inj (h.symm.trans (EpochLedger.load_of_holds hp he))
  | false =>
    rw [EpochLedger.load, if_neg hp, he] at h
    cases h

theorem resume_ledger {ledger : EpochLedger} {environment : StartEnvironment}
    (hp : ledger.path ≠ []) (h : c.resume ledger environment = .ok c') :
    c'.ledgerOpen = true ∧ c'.ledger.path = ledger.path ∧ c'.ledger.holds c'.epoch ∧
      ∃ persisted, ledger.load environment.readable = .ok persisted ∧
        c'.epoch = c.resumeEpoch persisted ∧ c'.epoch.valid := by
  obtain ⟨persisted, hload, hstored⟩ := resume_ok h
  unfold persistEpoch at hstored
  rw [if_pos rfl] at hstored
  obtain ⟨rfl, hok⟩ := Prod.mk.inj hstored
  rcases EpochLedger.store_spec ledger (c.resumeEpoch persisted) environment.fault hp with
    ⟨-, hv, hh⟩ | ⟨hfail, -⟩
  · exact ⟨rfl, EpochLedger.store_path _ _ _, hh, persisted, hload, rfl, hv⟩
  · exact absurd hok hfail

/-- A start with a ledger stores its epoch, and that is past the one it found. -/
theorem launch_ledger {config : CoordinatorConfig} (hd : config.directory ≠ [])
    {environment : StartEnvironment} {disk : Option Text}
    (h : launch config environment disk = some c) :
    c.ledgerOpen = true ∧ c.ledger.path ≠ [] ∧ c.ledger.holds c.epoch ∧
      ∀ e, disk = some (encodeLedger e) → e < c.epoch := by
  have hs : (create config).start environment disk = .ok c := by
    unfold launch at h
    cases hs : (create config).start environment disk with
    | error error =>
      rw [hs] at h
      cases h
    | ok started =>
      rw [hs] at h
      obtain rfl := Option.some.inj h
      rfl
  rcases start_ok hs with ⟨hempty, -⟩ | ⟨ledger, hopen, hresume⟩
  · exact absurd hempty hd
  obtain ⟨-, rfl⟩ := openIn_ok hopen
  obtain ⟨ho, hpath, hh, persisted, hload, he, hv⟩ :=
    resume_ledger (List.append_ne_nil_of_left_ne_nil hd _) hresume
  refine ⟨ho, ?_, hh, fun e hdisk => ?_⟩
  · rw [hpath]
    exact List.append_ne_nil_of_left_ne_nil hd _
  · obtain rfl := load_held hload hdisk
    rw [he] at hv ⊢
    exact lt_resumeEpoch (create_epoch_valid config) hv

/-! ### The condition -/

/-- A request is granted under the current epoch while the ledger file does not hold it:
the request supersedes no live lease, so nothing is stored. -/
def grantsUnpersisted (c : Coordinator) : Section → Prop
  | .leaseRequest request _ _ _ =>
    wellFormed request ∧
      (∀ record ∈ c.leases.entries, record.claimedBy request →
        record.heldBy request.boot request.worker) ∧ ¬c.ledger.holds c.epoch
  | _ => False

instance (c : Coordinator) : DecidablePred c.grantsUnpersisted
  | .leaseRequest request _ _ _ => inferInstanceAs (Decidable (wellFormed request ∧
      (∀ record ∈ c.leases.entries, record.claimedBy request →
        record.heldBy request.boot request.worker) ∧ ¬c.ledger.holds c.epoch))
  | .connected | .frameIn | .frameOut | .hello _ | .denyLease _ | .leaseRenew _ _ | .countDenied
  | .decisionPublish _ _ | .heartbeat | .control _ _ | .answerControl _ | .advanceEpoch _
  | .stop => isFalse id

end Coordinator

namespace World

open Coordinator

/-- A section that a running coordinator performs neither makes the epoch run around nor
grants under an epoch that is not in the ledger file. -/
def keepsEpochs (w : World) : Event → Prop
  | .serve s => ∀ i ∈ w.running, ¬i.coordinator.wrapsEpoch s ∧ ¬i.coordinator.grantsUnpersisted s
  | _ => True

instance (w : World) : DecidablePred w.keepsEpochs
  | .serve s => inferInstanceAs (Decidable (∀ i ∈ w.running,
      ¬i.coordinator.wrapsEpoch s ∧ ¬i.coordinator.grantsUnpersisted s))
  | .start _ | .crash | .crashDuring _ | .crashStarting _ => isTrue trivial

/-! ### The invariant -/

/-- The ledger file holds an epoch that no grant of the log is past. -/
def covers (disk : Option Text) (log : List MessageLeaseGrant) : Prop :=
  ∀ grant ∈ log, ∃ e : EpochId, disk = some (encodeLedger e) ∧ grant.epoch ≤ e

/-- What holds of the running coordinator. -/
structure Continues (w : World) (i : Incarnation) : Prop where
  sound : Sound i.coordinator
  traced : Traced i.coordinator i.grants
  opened : i.coordinator.ledgerOpen = true
  path : i.coordinator.ledger.path ≠ []
  file : i.coordinator.ledger.file = w.disk
  behind : ∃ e : EpochId, w.disk = some (encodeLedger e) ∧ e ≤ i.coordinator.epoch
  started : i.startEpoch ≤ i.coordinator.epoch
  own : ∀ grant ∈ i.grants, i.startEpoch ≤ grant.epoch
  past : ∀ grant ∈ w.past, grant.epoch < i.startEpoch
  covers : covers w.disk i.grants

structure Covered (w : World) : Prop where
  past : covers w.disk w.past
  running : ∀ i ∈ w.running, w.Continues i

theorem covers_append {disk : Option Text} {a b : List MessageLeaseGrant} (ha : covers disk a)
    (hb : covers disk b) : covers disk (a ++ b) := by
  intro grant hm
  exact (List.mem_append.mp hm).elim (ha grant) (hb grant)

/-- A file that moves on covers what it covered. -/
theorem covers_of_le {disk : Option Text} {log : List MessageLeaseGrant} (h : covers disk log)
    {e e' : EpochId} (hd : disk = some (encodeLedger e)) (hle : e ≤ e') :
    covers (some (encodeLedger e')) log := by
  intro grant hm
  obtain ⟨x, hx, hgx⟩ := h grant hm
  obtain rfl := @EpochLedger.holds_unique { file := disk } x e hx hd
  exact ⟨e', rfl, Nat.le_trans hgx hle⟩

variable {w : World} {i : Incarnation} {config : CoordinatorConfig}

/-- The file a section leaves covers what the file before covered. -/
theorem Continues.covers_file (h : w.Continues i) {disk : Option Text}
    (hf : disk = i.coordinator.ledger.file ∨
      i.coordinator.epoch.next.valid ∧ disk = some (encodeLedger i.coordinator.epoch.next))
    {log : List MessageLeaseGrant} (hc : World.covers w.disk log) : World.covers disk log := by
  obtain ⟨e, hd, hle⟩ := h.behind
  rcases hf with rfl | ⟨hv, rfl⟩
  · rw [h.file]
    exact hc
  · have hlt := EpochId.lt_next hv
    rw [EpochId.lt_iff] at hlt
    exact covers_of_le hc hd (Nat.le_trans hle (Nat.le_of_lt hlt))

theorem covered_crash (h : w.Covered) (hi : w.Continues i) {disk : Option Text}
    (hf : disk = i.coordinator.ledger.file ∨
      i.coordinator.epoch.next.valid ∧ disk = some (encodeLedger i.coordinator.epoch.next)) :
    (w.crash disk i).Covered :=
  ⟨covers_append (hi.covers_file hf hi.covers) (hi.covers_file hf h.past), nofun⟩

theorem covered_launch (hd : config.directory ≠ []) (h : w.Covered) {c : Coordinator}
    {environment : StartEnvironment} (hl : launch config environment w.disk = some c) :
    ({ w with disk := c.ledger.file, running := some ⟨c, c.epoch, []⟩ } : World).Covered := by
  obtain ⟨ho, hp, hh, hlt⟩ := launch_ledger hd hl
  have hpast : ∀ grant ∈ w.past, grant.epoch < c.epoch := by
    intro grant hm
    obtain ⟨e, he, hle⟩ := h.past grant hm
    exact Nat.lt_of_le_of_lt hle (hlt e he)
  obtain ⟨hsound, ht⟩ := (fenced_launch config environment w.disk).2 c hl
  refine ⟨fun grant hm => ⟨c.epoch, hh, Nat.le_of_lt (hpast grant hm)⟩, fun i hi => ?_⟩
  obtain rfl := Option.some.inj hi
  exact ⟨hsound, ht, ho, hp, rfl, ⟨c.epoch, hh, Nat.le_refl _⟩, Nat.le_refl _, nofun, hpast, nofun⟩

/-- The epoch of a grant is in the file, or under one that is, when it is sent. -/
theorem granted_covered (hi : w.Continues i) {s : Section} {c : Coordinator}
    (hs : i.coordinator.perform s = some c) (hu : ¬i.coordinator.grantsUnpersisted s)
    {grant : MessageLeaseGrant} (hg : i.coordinator.granted s = some grant) :
    World.covers c.ledger.file [grant] := by
  have hfile := (perform_ledger hi.sound hs).file_cases
  cases s with
  | leaseRequest request now order fault =>
    obtain ⟨hv, -, -, -, he⟩ := leased_terms hi.sound hs hg
    rcases perform_epoch hi.sound hs with ⟨ha, -⟩ | ⟨ha, hsame⟩
    · have hh := granted_stored hi.sound hi.opened hi.path ha hs hg
      rintro _ (_ | ⟨_, ⟨⟩⟩)
      exact ⟨c.epoch, hh, he ▸ Nat.le_refl _⟩
    · have hheld : i.coordinator.ledger.holds i.coordinator.epoch := by
        by_contra hno
        refine hu ⟨hv, fun record hm hc => ?_, hno⟩
        by_contra hf
        exact ha ⟨hv, record, hm, hc, hf⟩
      refine hi.covers_file hfile ?_
      rintro _ (_ | ⟨_, ⟨⟩⟩)
      refine ⟨i.coordinator.epoch, hi.file.symm.trans hheld, ?_⟩
      rw [he, hsame]
      exact Nat.le_refl _
  | leaseRenew renew now =>
    refine hi.covers_file hfile ?_
    rintro _ (_ | ⟨_, ⟨⟩⟩)
    cases granted_by hi.sound hs hg with
    | renewed record mem same =>
      obtain ⟨e, hd, hle⟩ := hi.covers _ (hi.traced.mem_log mem)
      exact ⟨e, hd, same.epoch ▸ hle⟩
    | leased request now order fault hseq => cases hseq
  | _ => cases hg

/-- A grant is under an epoch that its coordinator started with or advanced to. -/
theorem started_le_granted (hi : w.Continues i) {s : Section} {c : Coordinator}
    (hs : i.coordinator.perform s = some c) (hw : ¬i.coordinator.wrapsEpoch s)
    {grant : MessageLeaseGrant} (hg : i.coordinator.granted s = some grant) :
    i.startEpoch ≤ grant.epoch := by
  cases granted_by hi.sound hs hg with
  | renewed record mem same =>
    rw [same.epoch]
    exact hi.own _ (hi.traced.mem_log mem)
  | leased request now order fault hseq hv hd hboot hworker he =>
    rw [he]
    exact Nat.le_trans hi.started (epoch_le_of_not_wraps hi.sound hs hw)

theorem covered_serve (h : w.Covered) (hi : w.Continues i) {s : Section} {c : Coordinator}
    (hs : i.coordinator.perform s = some c) (hw : ¬i.coordinator.wrapsEpoch s)
    (hu : ¬i.coordinator.grantsUnpersisted s) :
    ({ w with
      disk := c.ledger.file
      running := some { i with
        coordinator := c
        grants := (i.coordinator.granted s).toList ++ i.grants } } : World).Covered := by
  have hledger := perform_ledger hi.sound hs
  have hle := epoch_le_of_not_wraps hi.sound hs hw
  refine ⟨hi.covers_file hledger.file_cases h.past, fun j hj => ?_⟩
  obtain rfl := Option.some.inj hj
  refine ⟨hi.sound.step (perform_tableStep hi.sound s hs), traced_step hi.sound hi.traced hs hw,
    hledger.opened.trans hi.opened, ?_, rfl, ?_, Nat.le_trans hi.started hle, ?_, hi.past, ?_⟩
  · rw [hledger.path]
    exact hi.path
  · obtain ⟨e, hd, hbehind⟩ := hi.behind
    rcases hledger.file with hf | ⟨hepoch, -, hh⟩
    · exact ⟨e, by rw [hf, hi.file, hd], Nat.le_trans hbehind hle⟩
    · exact ⟨_, hh, hepoch ▸ Nat.le_refl _⟩
  · intro grant hm
    rcases List.mem_append.mp hm with hm | hm
    · exact started_le_granted hi hs hw (Option.mem_toList.mp hm)
    · exact hi.own grant hm
  · refine covers_append ?_ (hi.covers_file hledger.file_cases hi.covers)
    intro grant hm
    exact granted_covered hi hs hu (Option.mem_toList.mp hm) grant (List.mem_singleton.mpr rfl)

/-- What one event keeps. -/
theorem covered_step (hd : config.directory ≠ []) (h : w.Covered) (e : Event)
    (hk : w.keepsEpochs e) : (w.step config e).Covered := by
  unfold step
  cases hr : w.running with
  | none =>
    cases e with
    | start environment =>
      simp only
      cases hl : launch config environment w.disk with
      | none => exact h
      | some c => exact covered_launch hd h hl
    | crashStarting environment =>
      simp only
      cases hl : launch config environment w.disk with
      | none => exact h
      | some c => exact ⟨(covered_launch hd h hl).past, by simp⟩
    | _ => exact h
  | some i =>
    have hi := h.running i hr
    cases e with
    | serve s =>
      obtain ⟨hw, hu⟩ := hk i hr
      simp only
      cases hs : i.coordinator.perform s with
      | none => exact covered_crash h hi (fileAfter_cases hi.sound s)
      | some c => exact covered_serve h hi hs hw hu
    | crash => exact covered_crash h hi (Or.inl hi.file.symm)
    | crashDuring s => exact covered_crash h hi (fileAfter_cases hi.sound s)
    | _ => exact h

theorem epochsNotReused_of_covered (h : w.Covered) : w.epochsNotReused := by
  intro i hi grant hm
  have hc := h.running i hi
  exact ⟨hc.past grant hm, fun own ho => Nat.lt_of_lt_of_le (hc.past grant hm) (hc.own own ho)⟩

/-- Over every sequence of starts, sections and crashes on one directory whose sections
keep their epochs: a coordinator starts past every epoch granted before. -/
theorem run_epochs_not_reused {config : CoordinatorConfig} (hd : config.directory ≠ [])
    (disk : Option Text) (events : List Event)
    (h : ∀ call ∈ calls (step config) { disk } events, call.1.keepsEpochs call.2) :
    (run (step config) { disk } events).epochsNotReused :=
  epochsNotReused_of_covered (@run_invariant_of_calls _ _ (step config) Covered keepsEpochs
    (fun _ e hw hk => covered_step hd hw e hk) { disk } ⟨nofun, nofun⟩ events h)

/-- A coordinator with a ledger that takes control requests. -/
def ledgerConfig : CoordinatorConfig := { directory := ascii "d", controlToken := ascii "t" }

/-- A crash and a restart after one incarnation superseded another. -/
theorem run_epochs_not_reused_superseded :
    (run (step ledgerConfig) {} [.start {}, .serve (sampleLease 1 1000),
      .serve (sampleLease 2 2000), .crash, .start {}]).epochsNotReused :=
  run_epochs_not_reused (by decide) none _ (by decide +kernel)

/-- All leases are revoked, one is granted anew, and the coordinator crashes. -/
def revokedThenGranted : List Event :=
  [.start {}, .serve (sampleLease 1 1000),
    .serve (.control { opcode := .revokeAll, token := ascii "t" } none),
    .serve (sampleLease 1 2000), .crash, .start {}]

/-- The restarted coordinator has the epoch that RevokeAll advanced to. -/
theorem revoke_all_reuses_epoch :
    ¬(run (step ledgerConfig) {} revokedThenGranted).epochsNotReused := by
  decide +kernel

end World

end IncastGovernor
