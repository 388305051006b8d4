import IncastGovernor.Worker.Agreement
import IncastGovernor.Worker.Rules

/-! The agreement over a run. Every process stands in its exchange where its calls have brought
it, every turn of an exchange keeps it in agreement with the coordinator, and it stays so through
the turns of the others, which grant nothing to it. -/

namespace IncastGovernor

open Foundation

open Coordinator (Section)

/-- A reply settles a call, and leaves the worker in agreement. -/
def GovernorWorker.Settles (c : Coordinator) (w : GovernorWorker) (call : Call) (frame : Frame) :
    Prop :=
  (w.settle call (.ok frame)).2.failed = false ∧ (w.settle call (.ok frame)).1.Synced c

/-- A process at a stage of its exchange. -/
inductive Process.Agrees (c : Coordinator) (p : Process) : Stage → Prop
  | resting (stage : Stage) (calling : p.calling = none) (quiet : stage = .idle ∨ stage = .dropped)
      (synced : p.worker.Synced c) : Agrees c p stage
  | unsent (call : Call) (calling : p.calling = some call) (ended : p.ended = true) :
      Agrees c p .idle
  | requested (call : Call) (calling : p.calling = some call) (synced : p.worker.Synced c) :
      Agrees c p (.requested (p.worker.frame call))
  | denying (error : Error) (calling : p.calling = some .acquireLease)
      (synced : p.worker.Synced c) : Agrees c p (.denying error)
  | composed (call : Call) (frame : Frame) (calling : p.calling = some call)
      (settles : p.worker.Settles c call frame) : Agrees c p (.composed frame)
  | replied (call : Call) (frame : Frame) (calling : p.calling = some call)
      (settles : p.worker.Settles c call frame) : Agrees c p (.replied frame)
  | dropped (call : Call) (calling : p.calling = some call) : Agrees c p .dropped

namespace GovernorWorker

variable {c c' : Coordinator} {w : GovernorWorker} {s : Section}

theorem settle_config (call : Call) (reply : Outcome Frame) :
    (w.settle call reply).1.config = w.config := by
  cases reply with
  | error error => rfl
  | ok frame =>
    cases call <;>
      simp only [settle, reply, Prod.map_fst, id, handshakeReply, leaseReply, renewReply, grantReply,
        publishReply, heartbeatReply] <;>
      repeat' split
    all_goals rfl

theorem Settles.step {call : Call} {frame : Frame} (h : w.Settles c call frame)
    (hc : Coordinator.Sound c) (hs : c.perform s = some c') (hw : ¬c.wrapsEpoch s)
    (ho : c.grantsOther s w.config.boot w.config.worker) : w.Settles c' call frame := by
  refine ⟨h.1, h.2.step hc hs hw ?_⟩
  rw [settle_config]
  exact ho

theorem sending_config (w : GovernorWorker) (call : Call) : (w.sending call).config = w.config := by
  cases call <;> rfl

theorem dispatched_leaseRequest {input : Input} {call : Call} {request : MessageLeaseRequest}
    {now : Timestamp} {order : Enumeration LeaseRecord} {fault : Option AtomicWriteFault}
    (h : w.dispatched input call = .leaseRequest request now order fault) : call = .acquireLease := by
  cases call <;> first | rfl | cases h

end GovernorWorker

namespace Process

variable {c c' : Coordinator} {p : Process} {stage next : Stage} {s : Section}

/-- Sections that grant nothing to a process leave it in agreement. -/
theorem Agrees.step (h : p.Agrees c stage) (hc : Coordinator.Sound c) (hs : c.perform s = some c')
    (hw : ¬c.wrapsEpoch s) (ho : c.grantsOther s p.worker.config.boot p.worker.config.worker) :
    p.Agrees c' stage := by
  cases h with
  | resting _ calling quiet synced => exact .resting _ calling quiet (synced.step hc hs hw ho)
  | unsent call calling ended => exact .unsent call calling ended
  | requested call calling synced => exact .requested call calling (synced.step hc hs hw ho)
  | denying error calling synced => exact .denying error calling (synced.step hc hs hw ho)
  | composed call frame calling settles =>
    exact .composed call frame calling (settles.step hc hs hw ho)
  | replied call frame calling settles =>
    exact .replied call frame calling (settles.step hc hs hw ho)
  | dropped call calling => exact .dropped call calling

/-- A process whose exchange is lost. -/
theorem Agrees.drop (h : p.Agrees c stage) : p.Agrees c .dropped := by
  cases h with
  | resting _ calling quiet synced => exact .resting _ calling (Or.inr rfl) synced
  | unsent call calling ended => exact .dropped call calling
  | requested call calling synced => exact .dropped call calling
  | denying error calling synced => exact .dropped _ calling
  | composed call frame calling settles => exact .dropped call calling
  | replied call frame calling settles => exact .dropped call calling
  | dropped call calling => exact .dropped call calling

/-- A process that makes no call stands between two exchanges. -/
theorem Agrees.resting_of_idle (h : p.Agrees c stage) (hcalling : p.calling = none) :
    (stage = .idle ∨ stage = .dropped) ∧ p.worker.Synced c := by
  cases h with
  | resting _ _ quiet synced => exact ⟨quiet, synced⟩
  | unsent _ calling _ | requested _ calling _ | denying _ calling _ | composed _ _ calling _
  | replied _ _ calling _ | dropped _ calling =>
    rw [hcalling] at calling
    cases calling

/-- A call starts in agreement. -/
theorem agrees_start (hquiet : stage = .idle ∨ stage = .dropped) (h : p.worker.Synced c)
    (call : Call) (sent : Bool) : (p.start call sent).Agrees c (p.startStage stage call sent) := by
  have hsynced : (p.worker.sending call).Synced c := by
    cases call <;> exact ⟨h.lease, h.granted_le, h.epoch_le⟩
  have hopen : (p.start call sent).Agrees c
      (if sent then .requested ((p.worker.sending call).frame call) else .idle) := by
    cases sent with
    | true => exact .requested call rfl hsynced
    | false => exact .unsent call rfl rfl
  rcases hquiet with rfl | rfl
  · cases call <;> exact hopen
  · cases call with
    | connectAndHandshake => exact hopen
    | _ => exact .dropped _ rfl

/-- The process behind a reply that is no failure. -/
theorem finish_answered (p : Process) {call : Call} {frame : Frame}
    (h : (p.worker.settle call (.ok frame)).2.failed = false) :
    p.finish call frame =
      { p with
        worker := (p.worker.settle call (.ok frame)).1
        calling := none
        answers := p.answers ++ p.worker.answered call (p.worker.settle call (.ok frame)).2 } := by
  unfold finish
  simp only [h, if_false, Bool.false_eq_true]

/-- An error frame ends the process. -/
theorem finish_error (p : Process) (call : Call) (error : Error) :
    p.finish call (Coordinator.errorFrame error) = { p with ended := true } := by
  obtain ⟨hworker, hfailed⟩ := p.worker.settle_error call error
  unfold finish
  simp only [hfailed, if_true, hworker]

section Turns

variable {log : List MessageLeaseGrant} {input : Input} {o : Option Section}

theorem Agrees.rest (h : p.Agrees c stage) (hc : Coordinator.Sound c)
    (hp : Server.performed c o = some c') (hw : ∀ s ∈ o, ¬c.wrapsEpoch s)
    (ho : ∀ s ∈ o, c.grantsOther s p.worker.config.boot p.worker.config.worker) :
    p.Agrees c' stage := by
  cases o with
  | none =>
    obtain rfl := Option.some.inj hp
    exact h
  | some s => exact h.step hc hp (hw s rfl) (ho s rfl)

theorem grantsOther_of_operates (ho : ∀ s ∈ o, s.operates = true) :
    ∀ s ∈ o, c.grantsOther s p.worker.config.boot p.worker.config.worker :=
  fun s hs => Coordinator.grantsOther_of_none (Coordinator.granted_of_operates (ho s hs))

/-- A turn of its own exchange keeps a process in agreement. -/
theorem Agrees.turn (h : p.Agrees c stage) (hturn : Turn c input stage o next)
    (hc : Coordinator.Sound c) (ht : Coordinator.Traced c log) (hpos : c.positive)
    (hp : Server.performed c o = some c') (hw : ∀ s ∈ o, ¬c.wrapsEpoch s) : p.Agrees c' next := by
  cases hturn with
  | rested _ _ operates => exact h.rest hc hp hw (grantsOther_of_operates operates)
  | dropped _ _ operates => exact (h.rest hc hp hw (grantsOther_of_operates operates)).drop
  | sent frame _ operates =>
    cases h.rest hc hp hw (grantsOther_of_operates operates) with
    | resting _ calling quiet synced => simp at quiet
    | composed call _ calling settles => exact .replied call frame calling settles
  | served frame reply s dispatched replies =>
    cases h with
    | resting _ calling quiet synced => simp at quiet
    | requested call calling synced =>
      rw [p.worker.section_frame] at dispatched
      obtain rfl := Option.some.inj dispatched
      exact .composed call reply calling (synced.served hc ht hpos hp (hw _ rfl) replies)
  | denied frame request error refused dispatched denies =>
    cases h with
    | resting _ calling quiet synced => simp at quiet
    | requested call calling synced =>
      rw [p.worker.section_frame] at dispatched
      have hcall := GovernorWorker.dispatched_leaseRequest (Option.some.inj dispatched)
      have hnone : c.granted (.leaseRequest request input.now input.order input.fault) = none := by
        rw [Coordinator.granted, denies]
        rfl
      have hstep : c.perform (.leaseRequest request input.now input.order input.fault) = some c' := hp
      exact .denying error (hcall ▸ calling)
        (synced.step hc hstep (hw _ rfl) (Coordinator.grantsOther_of_none hnone))
  | counted error =>
    cases h with
    | resting _ calling quiet synced => simp at quiet
    | denying _ calling synced =>
      have hstep : c.perform (.denyLease error) = some c' := hp
      have hnext := synced.step hc hstep (hw _ rfl) (Coordinator.grantsOther_of_none rfl)
      obtain rfl := Option.some.inj hp
      refine .composed .acquireLease _ calling ?_
      unfold GovernorWorker.Settles
      rw [p.worker.settle_denied (Or.inl rfl)]
      exact ⟨rfl, hnext.learn p.worker.handshaken true⟩

/-- What a turn grants, it grants to the worker of its exchange, which waits for it. -/
theorem Agrees.turn_grants (h : p.Agrees c stage) (hturn : Turn c input stage o next)
    (hc : Coordinator.Sound c) (hpos : c.positive) (hp : Server.performed c o = some c')
    {s : Section} (hs : s ∈ o) {sent : MessageLeaseGrant} (hg : c.granted s = some sent) :
    p.calling ≠ none ∧ p.worker.addressed sent := by
  have hquiet : s.operates = true → p.calling ≠ none ∧ p.worker.addressed sent := by
    intro ho
    rw [Coordinator.granted_of_operates ho] at hg
    cases hg
  have hdispatched : ∀ frame, frame.section input = some s → stage = .requested frame →
      c.perform s = some c' → p.calling ≠ none ∧ p.worker.addressed sent := by
    rintro frame hsection rfl hp
    cases h with
    | resting _ calling quiet synced => simp at quiet
    | requested call calling synced =>
      rw [p.worker.section_frame] at hsection
      obtain rfl := Option.some.inj hsection
      refine ⟨?_, synced.grants hc hpos hp hg⟩
      rw [calling]
      exact Option.some_ne_none call
  cases hturn with
  | rested _ _ operates => exact hquiet (operates s hs)
  | dropped _ _ operates => exact hquiet (operates s hs)
  | sent frame _ operates => exact hquiet (operates s hs)
  | served frame reply s dispatched replies =>
    obtain rfl := Option.some.inj hs
    exact hdispatched frame dispatched rfl hp
  | denied frame request error refused dispatched denies =>
    obtain rfl := Option.some.inj hs
    exact hdispatched frame dispatched rfl hp
  | counted error =>
    obtain rfl := Option.some.inj hs
    exact hquiet rfl

/-- A decision that a turn publishes is the one the worker of its exchange waits for. -/
theorem Agrees.turn_decides (h : p.Agrees c stage) (hturn : Turn c input stage o next)
    {publish : MessageDecisionPublish} {now : Timestamp} (hs : .decisionPublish publish now ∈ o) :
    ∃ decision, p.calling = some (.publish decision) ∧
      stage = .requested (p.worker.frame (.publish decision)) ∧
      publish = (p.worker.decisionMessage decision).delivered ∧ p.worker.Synced c := by
  cases hturn with
  | rested _ _ operates => cases operates _ hs
  | dropped _ _ operates => cases operates _ hs
  | sent frame _ operates => cases operates _ hs
  | counted error => cases hs
  | denied frame request error refused dispatched denies => cases hs
  | served frame reply s dispatched replies =>
    obtain rfl := Option.some.inj hs
    cases h with
    | resting _ calling quiet synced => simp at quiet
    | requested call calling synced =>
      rw [p.worker.section_frame] at dispatched
      cases call with
      | publish decision =>
        obtain ⟨rfl, -⟩ := Section.decisionPublish.inj (Option.some.inj dispatched)
        exact ⟨decision, calling, rfl, rfl, synced⟩
      | _ => cases dispatched

end Turns

end Process

/-! ### Runs -/

/-- The workers that call are distinct incarnations. -/
def distinctIncarnations (workers : ℕ → WorkerConfig) (ids : Set ℕ) : Prop :=
  ids.InjOn fun id => ((workers id).boot, (workers id).worker)

/-- The coordinator is sound, and its records are in the log of its grants. -/
structure Board.Coherent (b : Board) : Prop where
  sound : Coordinator.Sound b.coordinator
  traced : Coordinator.Traced b.coordinator b.grants
  positive : b.coordinator.positive

/-- A process is its worker's and agrees with the coordinator. Whatever lease it has is one of
its own; one that makes no calls has none. -/
structure Process.Coherent (workers : ℕ → WorkerConfig) (ids : Set ℕ) (id : ℕ) (b : Board)
    (p : Process) (stage : Stage) : Prop where
  config : p.worker.config = workers id
  agrees : p.Agrees b.coordinator stage
  epoch_le : p.worker.epoch.value.toNat ≤ b.coordinator.epoch.value.toNat
  leased : p.worker.lease = {} ∨ p.worker.addressed p.worker.lease
  inert : id ∉ ids → p.calling = none ∧ p.worker.lease = {}

/-- A call is that of a worker that calls. -/
def madeBy (ids : Set ℕ) (id : ℕ) (_ : Call) : Prop := id ∈ ids

/-- The epoch does not run around. -/
def keepsEpoch (c : Coordinator) (s : Section) : Prop := ¬c.wrapsEpoch s

section Runs

variable {workers : ℕ → WorkerConfig} {ids : Set ℕ} {b : Board} {c' : Coordinator} {o : Option Section}

theorem Board.Coherent.advance (h : b.Coherent) (hw : ∀ s ∈ o, keepsEpoch b.coordinator s)
    (hp : Server.performed b.coordinator o = some c') : (b.advance c' o).Coherent := by
  cases o with
  | none =>
    obtain rfl := Option.some.inj hp
    exact h
  | some s =>
    have hs : b.coordinator.perform s = some c' := hp
    exact ⟨h.sound.step (Coordinator.perform_tableStep h.sound s hs),
      Coordinator.traced_step h.sound h.traced hs (hw s rfl),
      Coordinator.positive_step h.sound h.positive hs⟩

theorem Board.Coherent.epoch_le (h : b.Coherent) (hw : ∀ s ∈ o, keepsEpoch b.coordinator s)
    (hp : Server.performed b.coordinator o = some c') :
    b.coordinator.epoch.value.toNat ≤ c'.epoch.value.toNat := by
  cases o with
  | none =>
    obtain rfl := Option.some.inj hp
    exact le_refl _
  | some s => exact Coordinator.epoch_le_of_not_wraps h.sound hp (hw s rfl)

theorem Board.advance_coordinator (b : Board) (c' : Coordinator) (o : Option Section) :
    (b.advance c' o).coordinator = c' := by cases o <;> rfl

theorem Process.Coherent.caller {id : ℕ} {p : Process} {stage : Stage}
    (h : p.Coherent workers ids id b stage) (hcalling : p.calling ≠ none) : id ∈ ids := by
  by_contra hid
  exact hcalling (h.inert hid).1

/-- A process without a lease needs no record. -/
theorem Process.Coherent.unleased {id : ℕ} {p : Process} {stage : Stage}
    (h : p.Coherent workers ids id b stage) (hid : id ∉ ids)
    (hepoch : b.coordinator.epoch.value.toNat ≤ c'.epoch.value.toNat) : p.Agrees c' stage := by
  obtain ⟨hcalling, hlease⟩ := h.inert hid
  obtain ⟨hquiet, hsynced⟩ := h.agrees.resting_of_idle hcalling
  exact .resting _ hcalling hquiet
    ⟨Or.inl hlease, hsynced.granted_le, hsynced.epoch_le.trans hepoch⟩

/-- A turn of another worker's exchange leaves a process where it is. -/
theorem Process.Coherent.other (hd : distinctIncarnations workers ids) (hb : b.Coherent)
    {id id' : ℕ} {p p' : Process} {stage stage' next : Stage} {input : Input}
    (h' : p'.Coherent workers ids id' b stage') (hne : id' ≠ id)
    (h : p.Coherent workers ids id b stage) (hturn : Turn b.coordinator input stage o next)
    (hw : ∀ s ∈ o, keepsEpoch b.coordinator s) (hp : Server.performed b.coordinator o = some c') :
    p'.Agrees c' stage' := by
  by_cases hid' : id' ∈ ids
  · refine h'.agrees.rest hb.sound hp hw ?_
    rintro s hs sent hsent ⟨hboot, hworker⟩
    obtain ⟨hcalling, haddressed⟩ := h.agrees.turn_grants hturn hb.sound hb.positive hp hs hsent
    rw [haddressed.1, h.config, h'.config] at hboot
    rw [haddressed.2.1, h.config, h'.config] at hworker
    exact hne (hd hid' (h.caller hcalling) (Prod.ext hboot.symm hworker.symm))
  · exact h'.unleased hid' (hb.epoch_le hw hp)

/-- Coherence is kept by every event of a run in which the epoch does not run around. -/
theorem coherent_rules (hd : distinctIncarnations workers ids) :
    Rules Board.Coherent (Process.Coherent workers ids) keepsEpoch (madeBy ids) where
  quiet := by
    rintro id b p stage h hcalling
    exact (h.agrees.resting_of_idle hcalling).1
  request := by
    rintro id b p frame ⟨-, h, -, -, -⟩
    cases h with
    | resting _ _ quiet _ => simp at quiet
    | requested call _ _ => exact ⟨call, rfl⟩
  operated := by
    intro b s c' hb ho hw hs
    have hkeeps : ∀ t ∈ some s, keepsEpoch b.coordinator t := fun t ht => Option.some.inj ht ▸ hw
    refine ⟨hb.advance hkeeps hs, fun id p stage h => ⟨h.config, ?_, ?_, h.leased, h.inert⟩⟩
    · exact h.agrees.step hb.sound hs hw
        (Coordinator.grantsOther_of_none (Coordinator.granted_of_operates ho))
    · exact h.epoch_le.trans (hb.epoch_le hkeeps hs)
  turned := by
    rintro b input o c' id p stage next hb h hturn hw hp
    have hepoch := hb.epoch_le hw hp
    refine ⟨hb.advance hw hp, ⟨h.config, ?_, ?_, h.leased, h.inert⟩,
      fun id' p' stage' hne h' => ⟨h'.config, ?_, ?_, h'.leased, h'.inert⟩⟩ <;>
      rw [Board.advance_coordinator]
    · exact h.agrees.turn hturn hb.sound hb.traced hb.positive hp hw
    · exact h.epoch_le.trans hepoch
    · exact h'.other hd hb hne h hturn hw hp
    · exact h'.epoch_le.trans hepoch
  started := by
    rintro b id p stage call sent hb h hfree hid -
    obtain ⟨hquiet, hsynced⟩ := h.agrees.resting_of_idle hfree.1
    refine ⟨(GovernorWorker.sending_config p.worker call).trans h.config,
      Process.agrees_start hquiet hsynced call sent, ?_, ?_, fun hother => absurd hid hother⟩
    · cases call <;> exact h.epoch_le
    · cases call <;> exact h.leased
  failed := by
    rintro b id p stage call error hb ⟨hconfig, h, hepoch, hleased, hinert⟩ hcalling hrunning
    refine ⟨hconfig, ?_, hepoch, hleased, hinert⟩
    cases h with
    | resting _ calling _ _ => rw [hcalling] at calling; cases calling
    | unsent _ _ ended => rw [hrunning] at ended; cases ended
    | requested call calling synced => exact .requested call calling synced
    | denying error calling synced => exact .denying error calling synced
    | composed call frame calling settles => exact .composed call frame calling settles
    | replied call frame calling settles => exact .replied call frame calling settles
    | dropped call calling => exact .dropped call calling
  finished := by
    rintro b id p call frame hb ⟨hconfig, h, -, -, hinert⟩ hcalling hrunning
    have hid : id ∉ ids → (none : Option Call) = none ∧ (p.finish call frame).worker.lease = {} :=
      fun hother => by rw [(hinert hother).1] at hcalling; cases hcalling
    cases h with
    | resting _ calling quiet _ => simp at quiet
    | replied call' _ calling settles =>
      obtain rfl := Option.some.inj (calling.symm.trans hcalling)
      have hfinish := p.finish_answered settles.1
      have hconfig' : (p.finish call' frame).worker.config = workers id := by
        rw [hfinish]
        exact (GovernorWorker.settle_config call' (.ok frame)).trans hconfig
      rw [hfinish] at hconfig' hid ⊢
      have hleased := settles.2.lease.imp_right And.left
      exact ⟨⟨hconfig', .resting _ rfl (Or.inl rfl) settles.2, settles.2.epoch_le, hleased, hid⟩,
        ⟨hconfig', .resting _ rfl (Or.inr rfl) settles.2, settles.2.epoch_le, hleased, hid⟩⟩
  refused := by
    rintro b id p call error hb ⟨hconfig, h, hepoch, hleased, hinert⟩ hcalling hrunning
    rw [p.finish_error]
    exact ⟨hconfig, .dropped call hcalling, hepoch, hleased, hinert⟩
  closed := by
    rintro b id p stage hb ⟨hconfig, h, hepoch, hleased, hinert⟩ hfree
    obtain ⟨hquiet, hsynced⟩ := h.resting_of_idle hfree.1
    refine ⟨hconfig, .resting _ hfree.1 hquiet ?_, hepoch, hleased, hinert⟩
    exact ⟨hsynced.lease, hsynced.granted_le, hsynced.epoch_le⟩

end Runs

end IncastGovernor
