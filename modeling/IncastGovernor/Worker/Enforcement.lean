import IncastGovernor.Worker.Program
import IncastGovernor.Worker.Succession

/-! What a fleet enforces. A program stands where the calls of its process have brought it, and as
long as it goes on, the worker, its governor and the decision under way are all bound by one
grant. So a decision is accepted under the authority it was made under. -/

namespace IncastGovernor

open Foundation

open Coordinator (Section)

/-! ### Bindings -/

/-- The decision was made under the grant. -/
def Decision.under (decision : Decision) (grant : MessageLeaseGrant) : Prop :=
  decision.epoch = grant.epoch ∧ decision.boot = grant.boot ∧ decision.worker = grant.worker ∧
    decision.lease = grant.lease

/-- The evidence is bound to the grant, and of a time at which the grant had not expired. -/
def EvidenceBundle.under (bundle : EvidenceBundle) (grant : MessageLeaseGrant) : Prop :=
  bundle.epoch = grant.epoch ∧ bundle.boot = grant.boot ∧ bundle.lease = grant.lease ∧
    bundle.destination = grant.destination ∧
      (grant.expiresAt.valid → ¬bundle.now > grant.expiresAt)

/-- A grant that has not expired at a positive instant has an expiry. -/
theorem Timestamp.valid_of_not_lt {t now : Timestamp} (hnow : 0 < now.nanos) (h : ¬t < now) :
    t.valid := by
  intro hzero
  refine h ?_
  show t.nanos < now.nanos
  rw [hzero]
  exact hnow

namespace Coordinator

variable {c c' : Coordinator} {s : Section}

/-- Every lease is of a destination. -/
def destined (c : Coordinator) : Prop :=
  ∀ record ∈ c.leases.entries, record.grant.destination.valid

theorem destined_step (h : Sound c) (hd : c.destined) (hs : c.perform s = some c') :
    c'.destined := by
  intro b hb
  rcases perform_grant h hs hb with hsent | ⟨⟨a, ha, hab⟩, -⟩
  · cases granted_by h hs hsent with
    | renewed record mem same =>
      rw [same.destination]
      exact hd record mem
    | leased request now order fault section_eq valid destination boot worker epoch =>
      rw [destination]
      exact valid.2.2
  · rw [← hab]
    exact hd a ha

end Coordinator

namespace Governor

/-- The governor is bound by the grant. -/
structure Under (g : Governor) (grant : MessageLeaseGrant) : Prop where
  destination : g.config.destination = grant.destination
  epoch : g.config.epoch = grant.epoch
  boot : g.config.boot = grant.boot
  worker : g.config.worker = grant.worker
  lease : g.config.lease = grant.lease
  leaseExpiry : g.config.leaseExpiry = grant.expiresAt

variable {g : Governor} {grant : MessageLeaseGrant}

theorem Under.of_config {g' : Governor} (h : g.Under grant) (hconfig : g'.config = g.config) :
    g'.Under grant := by
  obtain ⟨hdestination, hepoch, hboot, hworker, hlease, hexpiry⟩ := h
  exact ⟨hconfig ▸ hdestination, hconfig ▸ hepoch, hconfig ▸ hboot, hconfig ▸ hworker,
    hconfig ▸ hlease, hconfig ▸ hexpiry⟩

/-- Every decision, refusals among them, carries the binding of the governor. -/
theorem Under.decision (h : g.Under grant) (bundle : EvidenceBundle) :
    (g.evaluate bundle).1.under grant := by
  have hunder : ∀ decision : Decision, decision.epoch = g.config.epoch →
      decision.boot = g.config.boot → decision.worker = g.config.worker →
        decision.lease = g.config.lease → decision.under grant := by
    intro decision hepoch hboot hworker hlease
    exact ⟨hepoch.trans h.epoch, hboot.trans h.boot, hworker.trans h.worker, hlease.trans h.lease⟩
  unfold Governor.evaluate
  split
  · exact hunder _ rfl rfl rfl rfl
  · simp only
    split_ifs
    · exact hunder _ rfl rfl rfl rfl
    · split
      · exact hunder _ rfl rfl rfl rfl
      · generalize g.effect bundle = effect
        cases effect <;> exact hunder _ rfl rfl rfl rfl

/-- A decision that is no refusal rests on evidence under the grant of its governor. -/
theorem Under.evidence (h : g.Under grant) (hvalid : grant.destination.valid)
    {bundle : EvidenceBundle} (houtcome : (g.evaluate bundle).1.outcome ≠ .refused) : bundle.under grant := by
  have hgranted := bindingGranted_of_accepts (accepts_of_not_refused houtcome)
  refine ⟨hgranted.epoch.trans h.epoch, hgranted.boot.trans h.boot, hgranted.lease.trans h.lease,
    ?_, ?_⟩
  · rw [← h.destination] at hvalid ⊢
    exact hgranted.destination hvalid
  · rw [← h.leaseExpiry, ← instant_of_structurallyValid (g := g) hgranted.structural]
    exact hgranted.leaseExpiry

theorem under_create (options : WorkerOptions) (grant : MessageLeaseGrant) :
    (create (options.governorConfig grant)).Under grant := ⟨rfl, rfl, rfl, rfl, rfl, rfl⟩

end Governor

/-- The worker holds the grant and is not past its epoch. -/
def GovernorWorker.under (w : GovernorWorker) (grant : MessageLeaseGrant) : Prop :=
  w.lease = grant ∧ w.epoch = grant.epoch

/-- The call returned an error. -/
def Answer.isError : Answer → Bool
  | .status (.error _) | .grant (.error _) | .ack (.error _) => true
  | _ => false

theorem Answer.isError_of_failed {answer : Answer} (h : answer.failed = true) :
    answer.isError = true := by
  cases answer with
  | status status => cases status <;> first | rfl | cases h
  | grant grant => cases grant <;> first | rfl | cases h
  | ack ack => cases ack <;> first | rfl | cases h

namespace GovernorWorker

variable (w : GovernorWorker) {outcome : Outcome Frame}

theorem settle_lost (call : Call) (error : Error) :
    (w.settle call (.error error)).2.isError = true := by
  cases call <;> rfl

/-- What an answer to a decision leaves: the worker as it was, or a fenced one whose decision was
refused. -/
theorem settle_publish (decision : Decision) (outcome : Outcome Frame) :
    (w.settle (.publish decision) outcome).1 = w ∨
      ∃ ack, (w.settle (.publish decision) outcome).2 = .ack (.ok ack) ∧ ack.accepted = false ∧
        (w.settle (.publish decision) outcome).1.fenced = true := by
  cases outcome with
  | error error => exact Or.inl rfl
  | ok frame =>
    simp only [settle, reply, publishReply]
    split
    · split
      · exact Or.inl rfl
      · exact Or.inr ⟨_, rfl, rfl, rfl⟩
    · split
      · exact Or.inl rfl
      · split_ifs with hfenced
        · exact Or.inr ⟨_, rfl, by simpa using hfenced.1, rfl⟩
        · exact Or.inl rfl
    · exact Or.inl rfl

theorem settle_acquire {grant : MessageLeaseGrant}
    (h : (w.settle .acquireLease outcome).2 = .grant (.ok grant)) :
    (w.settle .acquireLease outcome).1.under grant := by
  cases outcome with
  | error error => cases h
  | ok frame =>
    simp only [settle, reply, leaseReply, grantReply] at h ⊢
    split at h
    · split at h <;> cases h
    · split at h
      · cases h
      · obtain rfl := Except.ok.inj (Answer.grant.inj h)
        simp_all [under]
    · cases h

end GovernorWorker

namespace WorkerProgram

/-- Where the program stands, its process stands: a call is under way, or the process is free. -/
def stands (g : WorkerProgram) (p : Process) : Prop :=
  match g.stage with
  | .connecting | .requesting => p.free
  | .handshaking => p.calling = some .connectAndHandshake ∧ p.ended = false
  | .acquiring => p.calling = some .acquireLease ∧ p.ended = false
  | .opening => p.free ∧ p.worker.under g.grant
  | .deciding | .journalling => p.free ∧ p.worker.under g.grant ∧ g.governor.Under g.grant
  | .publishing =>
    (∃ decision, p.calling = some (.publish decision)) ∧ p.ended = false ∧
      p.worker.under g.grant ∧ g.governor.Under g.grant
  | .exited _ => True

/-- The decision that is under way was evaluated under the grant of the worker. -/
structure Tracks (g : WorkerProgram) (p : Process) : Prop where
  publishes : ∀ decision, p.calling = some (.publish decision) →
    p.worker.under p.worker.lease ∧
      ∃ e ∈ g.evaluations, e.1.Under p.worker.lease ∧ decision = (e.1.evaluate e.2).1
  stands : g.stands p

variable {g : WorkerProgram} {p : Process}

/-- A program that exits leaves its process to its call. -/
theorem Tracks.exit (h : g.Tracks p) (code : ℕ) : (g.exit code).Tracks p :=
  ⟨h.publishes, trivial⟩

theorem tracks_free (hfree : p.free) (h : g.stands p) : g.Tracks p := by
  refine ⟨fun decision hcalling => ?_, h⟩
  rw [hfree.1] at hcalling
  cases hcalling

theorem next_stands (hfree : p.free) (hunder : p.worker.under g.grant)
    (hbound : g.governor.Under g.grant) : g.next.Tracks p := by
  refine tracks_free hfree ?_
  unfold next
  split_ifs
  · exact ⟨hfree, hunder, hbound⟩
  · trivial

/-! ### Steps of a program -/

/-- What an event of its own makes of a program, with its process: a call that settles leaves the
process to an error, or frees it. -/
inductive Moves (g : WorkerProgram) (p : Process) : WorkerProgram → Process → Prop
  | stays : Moves g p g p
  | failed (bundle : EvidenceBundle) (call : Call) (calls : g.calls bundle = some call) :
    Moves g p (g.called bundle false) p
  | called (bundle : EvidenceBundle) (call : Call) (sent : Bool)
    (calls : g.calls bundle = some call) : Moves g p (g.called bundle sent) (p.start call sent)
  | settled (call : Call) (outcome : Outcome Frame) (p' : Process) (calling : p.calling = some call)
    (worker : p'.worker = (p.worker.settle call outcome).1)
    (ends : p'.calling = p.calling ∧ (p.worker.settle call outcome).2.isError = true ∧
        p'.answers = p.answers ∨
      p'.free ∧ p'.answers = p.answers ++
        p.worker.answered call (p.worker.settle call outcome).2) :
    Moves g p (g.settled p'.worker (p.worker.settle call outcome).2) p'
  | opened (created listed : Bool) (stage : g.stage = .opening) :
    Moves g p (g.opened created listed) p
  | journalled (faults : CommitFaults) (stage : g.stage = .journalling) :
    Moves g p (g.journalled faults) p
  | crashed (history : History) : Moves g p { g with stage := .exited 1, history } p

/-- The program as it makes its call, beside its process. -/
theorem Tracks.called (h : g.Tracks p) {bundle : EvidenceBundle} {call : Call}
    (hcall : g.calls bundle = some call) (sent : Bool) :
    p.free ∧ (g.called bundle false).Tracks p ∧
      (g.called bundle sent).Tracks (p.start call sent) := by
  have hstands := h.stands
  unfold calls at hcall
  unfold WorkerProgram.called
  unfold WorkerProgram.stands at hstands
  cases hstage : g.stage with
  | connecting =>
    rw [hstage] at hcall hstands
    obtain rfl := Option.some.inj hcall
    refine ⟨hstands, h.exit 1, fun decision hcalling => ?_, ?_⟩
    · cases hcalling
    · cases sent
      · trivial
      · exact ⟨rfl, rfl⟩
  | requesting =>
    rw [hstage] at hcall hstands
    obtain rfl := Option.some.inj hcall
    refine ⟨hstands, h.exit 2, fun decision hcalling => ?_, ?_⟩
    · cases hcalling
    · cases sent
      · trivial
      · exact ⟨rfl, rfl⟩
  | deciding =>
    rw [hstage] at hcall hstands
    obtain rfl := Option.some.inj hcall
    obtain ⟨hfree, hunder, hbound⟩ := hstands
    refine ⟨hfree, tracks_free hfree trivial, fun decision hcalling => ?_, ?_⟩
    · obtain rfl := Call.publish.inj (Option.some.inj hcalling)
      have hworker : (p.start (.publish (g.governor.evaluate bundle).1) sent).worker.lease =
          g.grant := hunder.1
      have hevaluated : (g.governor, bundle) ∈ g.evaluations ++ [(g.governor, bundle)] :=
        List.mem_append_right _ List.mem_cons_self
      rw [hworker]
      refine ⟨⟨hunder.1, hunder.2⟩, ?_⟩
      cases sent <;> exact ⟨_, hevaluated, hbound, rfl⟩
    · cases sent
      · trivial
      · exact ⟨⟨_, rfl⟩, rfl, hunder, hbound.of_config (Governor.evaluate_config _ _)⟩
  | _ =>
    rw [hstage] at hcall
    cases hcall

/-- A process behind an answer to its call, which frees it unless it is an error. -/
structure Answered (p : Process) (call : Call) (outcome : Outcome Frame) (p' : Process) : Prop where
  calling : p.calling = some call
  worker : p'.worker = (p.worker.settle call outcome).1
  ends : p'.calling = p.calling ∧ (p.worker.settle call outcome).2.isError = true ∧
      p'.answers = p.answers ∨
    p'.free ∧ p'.answers = p.answers ++ p.worker.answered call (p.worker.settle call outcome).2

section Answers

variable {call : Call} {outcome : Outcome Frame} {p' : Process}

theorem Answered.free (ha : Answered p call outcome p')
    (hanswer : (p.worker.settle call outcome).2.isError = false) : p'.free := by
  refine (ha.ends.resolve_left fun hboth => ?_).1
  rw [hboth.2.1] at hanswer
  cases hanswer

theorem Answered.config (ha : Answered p call outcome p') :
    p'.worker.config = p.worker.config := by
  rw [ha.worker]
  exact p.worker.settle_config call outcome

theorem Answered.answers (ha : Answered p call outcome p') :
    ∀ answer ∈ p.answers, answer ∈ p'.answers := by
  intro answer hm
  rcases ha.ends with ⟨-, -, hsame⟩ | ⟨-, hmore⟩
  · exact hsame ▸ hm
  · exact hmore ▸ List.mem_append_left _ hm

/-- The decision that is under way stays the one that was evaluated. -/
theorem Tracks.behind (h : g.Tracks p) (ha : Answered p call outcome p') {next : WorkerProgram}
    (hevaluations : next.evaluations = g.evaluations) (hnext : next.stands p') : next.Tracks p' := by
  rcases ha.ends with ⟨hsame, herror, -⟩ | ⟨hfree, -⟩
  · refine ⟨fun decision hdecision => ?_, hnext⟩
    rw [hsame] at hdecision
    obtain rfl := Option.some.inj (ha.calling.symm.trans hdecision)
    have hkept : p'.worker = p.worker := by
      rcases p.worker.settle_publish decision outcome with hsettled | ⟨ack, hack, -, -⟩
      · exact ha.worker.trans hsettled
      · rw [hack] at herror
        cases herror
    rw [hkept, hevaluations]
    exact h.publishes decision hdecision
  · exact tracks_free hfree hnext

/-- The program behind the answer to its handshake. -/
theorem Tracks.handshaken (h : g.Tracks p) (ha : Answered p call outcome p')
    (hstage : g.stage = .handshaking) :
    (g.settled p'.worker (p.worker.settle call outcome).2).Tracks p' := by
  have hfree := ha.free
  have hexit : (g.exit 1).Tracks p' := h.behind ha rfl trivial
  unfold WorkerProgram.settled
  rw [hstage]
  generalize (p.worker.settle call outcome).2 = answer at hfree ⊢
  cases answer with
  | status status =>
    cases status with
    | ok u => exact h.behind ha rfl (hfree rfl)
    | error error => exact hexit
  | _ => exact hexit

/-- The program behind the answer to its request for a lease: granted, its worker holds the grant. -/
theorem Tracks.acquired (h : g.Tracks p) (ha : Answered p call outcome p')
    (hstage : g.stage = .acquiring) :
    (g.settled p'.worker (p.worker.settle call outcome).2).Tracks p' := by
  have hstands := h.stands
  unfold WorkerProgram.stands at hstands
  rw [hstage] at hstands
  obtain rfl := Option.some.inj (ha.calling.symm.trans hstands.1)
  have hfree := ha.free
  have hexit : (g.exit 2).Tracks p' := h.behind ha rfl trivial
  unfold WorkerProgram.settled
  rw [hstage]
  generalize hanswer : (p.worker.settle .acquireLease outcome).2 = answer at hfree ⊢
  cases answer with
  | grant granted =>
    cases granted with
    | ok grant =>
      refine h.behind ha rfl ⟨hfree rfl, ?_⟩
      rw [ha.worker]
      exact p.worker.settle_acquire hanswer
    | error error => exact hexit
  | _ => exact hexit

/-- The program behind the answer to its decision: unless it is fenced, its worker is as it was. -/
theorem Tracks.published (h : g.Tracks p) (ha : Answered p call outcome p')
    (hstage : g.stage = .publishing) :
    (g.settled p'.worker (p.worker.settle call outcome).2).Tracks p' := by
  have hstands := h.stands
  unfold WorkerProgram.stands at hstands
  rw [hstage] at hstands
  obtain ⟨⟨decision, hdecision⟩, -, hunder, hbound⟩ := hstands
  obtain rfl := Option.some.inj (ha.calling.symm.trans hdecision)
  have hfree := ha.free
  have hexit : ∀ code, (g.exit code).Tracks p' := fun code => h.behind ha rfl trivial
  unfold WorkerProgram.settled
  rw [hstage]
  generalize hanswer : (p.worker.settle (.publish decision) outcome).2 = answer at hfree ⊢
  cases answer with
  | ack acked =>
    cases acked with
    | ok ack =>
      show (if ¬ack.accepted ∧ p'.worker.fenced then g.exit 3 else _ : WorkerProgram).Tracks p'
      by_cases hfenced : ¬ack.accepted ∧ p'.worker.fenced
      · rw [if_pos hfenced]
        exact hexit 3
      · rw [if_neg hfenced]
        have hkept : p'.worker = p.worker := by
          rcases p.worker.settle_publish decision outcome with hsettled | ⟨refused, hack, hnot, hset⟩
          · exact ha.worker.trans hsettled
          · rw [hanswer] at hack
            obtain rfl := Except.ok.inj (Answer.ack.inj hack)
            rw [ha.worker] at hfenced
            exact absurd ⟨by simp [hnot], hset⟩ hfenced
        refine h.behind ha rfl ⟨hfree rfl, ?_, hbound⟩
        rw [hkept]
        exact hunder
    | error error => exact hexit 4
  | _ => exact hexit 4

/-- The program behind an answer; where it has no call under way, there is none to answer. -/
theorem Tracks.settled (h : g.Tracks p) (ha : Answered p call outcome p') :
    (g.settled p'.worker (p.worker.settle call outcome).2).Tracks p' := by
  have hcalling := ha.calling
  have hstands := h.stands
  unfold WorkerProgram.stands at hstands
  cases hstage : g.stage with
  | handshaking => exact h.handshaken ha hstage
  | acquiring => exact h.acquired ha hstage
  | publishing => exact h.published ha hstage
  | exited code =>
    have hkept : g.settled p'.worker (p.worker.settle call outcome).2 = g := by
      simp only [WorkerProgram.settled, hstage]
    rw [hkept]
    refine h.behind ha rfl ?_
    unfold WorkerProgram.stands
    rw [hstage]
    trivial
  | connecting | requesting =>
    rw [hstage] at hstands
    rw [hstands.1] at hcalling
    cases hcalling
  | _ =>
    rw [hstage] at hstands
    rw [hstands.1.1] at hcalling
    cases hcalling

end Answers

/-- A governor that is bound again is bound by the grant. -/
theorem rebound_under {governor bound : Governor} {state : GovernorState}
    (hdestination : governor.config.destination = g.grant.destination)
    (h : g.rebound governor state = .ok bound) : bound.Under g.grant := by
  unfold rebound at h
  have hby := governor.restoreState_by state
  generalize governor.restoreState state = result at h hby
  cases hby with
  | refused error => cases h
  | restored =>
    have hbound := Governor.bindAuthority_by { governor.unbound with state := Governor.restored state }
      g.grant.epoch g.grant.boot g.grant.worker g.grant.lease g.grant.expiresAt
    simp only at h
    generalize Governor.bindAuthority _ g.grant.epoch g.grant.boot g.grant.worker g.grant.lease
      g.grant.expiresAt = result at h hbound
    cases hbound with
    | refused error => cases h
    | bound =>
      obtain rfl := Except.ok.inj h
      exact ⟨hdestination, rfl, rfl, rfl, rfl, rfl⟩

/-- The start behind the grant. -/
theorem opened_tracks (hfree : p.free) (hunder : p.worker.under g.grant) (created listed : Bool) :
    (g.opened created listed).Tracks p := by
  have hexit : ∀ (next : WorkerProgram) (code : ℕ), (next.exit code).Tracks p :=
    fun _ _ => tracks_free hfree trivial
  unfold opened
  simp only
  split
  · exact next_stands hfree hunder (Governor.under_create _ _)
  · split
    · exact hexit _ _
    · split_ifs with hrecovered hother
      · exact hexit _ _
      · split
        · exact hexit _ _
        · next bound hbound => exact next_stands hfree hunder (rebound_under rfl hbound)
      · exact next_stands hfree hunder (Governor.under_create _ _)

theorem journalled_tracks (hfree : p.free) (hunder : p.worker.under g.grant)
    (hbound : g.governor.Under g.grant) (faults : CommitFaults) :
    (g.journalled faults).Tracks p := by
  unfold journalled
  simp only
  split
  · split
    · exact tracks_free hfree trivial
    · exact next_stands hfree hunder hbound
  · exact next_stands hfree hunder hbound

/-- Whatever its program does, the process stays where it stands. -/
theorem Tracks.moves (h : g.Tracks p) {g' : WorkerProgram} {p' : Process} (hm : Moves g p g' p') :
    g'.Tracks p' := by
  have hstands := h.stands
  unfold WorkerProgram.stands at hstands
  cases hm with
  | stays => exact h
  | failed bundle call calls => exact (h.called calls false).2.1
  | called bundle call sent calls => exact (h.called calls sent).2.2
  | settled call outcome p' calling worker ends =>
    exact h.settled ⟨calling, worker, ends⟩
  | opened created listed stage =>
    rw [stage] at hstands
    exact opened_tracks hstands.1 hstands.2 created listed
  | journalled faults stage =>
    rw [stage] at hstands
    exact journalled_tracks hstands.1 hstands.2.1 hstands.2.2 faults
  | crashed history => exact ⟨h.publishes, trivial⟩

end WorkerProgram

/-! ### Steps of a fleet -/

namespace Deployment

variable {d d' : Deployment} {id : ℕ}

/-- The call of a free process goes out if the worker's checks pass. -/
theorem call_free (hfree : (d.processes id).free) (call : Call) (sent : Bool) :
    (d.call id call sent).processes = Function.update d.processes id
      (if ((d.processes id).worker.checks call).isOk then (d.processes id).start call sent
        else d.processes id) := by
  have hidle : ¬((d.processes id).ended ∨ (d.processes id).calling.isSome) := by
    simp [hfree.1, hfree.2]
  unfold Deployment.call
  simp only [if_neg hidle]
  cases hchecks : (d.processes id).worker.checks call with
  | error error => simp [Except.isOk, Except.toBool]
  | ok u => cases call <;> simp [Except.isOk, Except.toBool]

/-- A call that nothing settles yet. -/
theorem settle_waiting {lost : Option Error} (h : d.settles id lost = none) :
    d.settle id lost = d := by
  unfold settles at h
  unfold Deployment.settle
  simp only at h ⊢
  cases hcalling : (d.processes id).calling with
  | none => rfl
  | some call =>
    rw [hcalling] at h
    simp only at h ⊢
    by_cases hended : (d.processes id).ended = true
    · simp only [if_pos hended]
    · simp only [if_neg hended] at h ⊢
      cases lost with
      | some error => cases h
      | none =>
        cases hreplies : (d.links id).replies with
        | nil => rfl
        | cons frame replies =>
          rw [hreplies] at h
          cases h

/-- What a process is once its call is settled. -/
theorem settle_settled {lost : Option Error} {w : GovernorWorker} {answer : Answer}
    (h : d.settles id lost = some (w, answer)) :
    ∃ call outcome p', (d.processes id).calling = some call ∧
      (d.processes id).worker.settle call outcome = (w, answer) ∧
      (d.settle id lost).processes = Function.update d.processes id p' ∧ p'.worker = w ∧
      (p'.calling = (d.processes id).calling ∧ answer.isError = true ∧
          p'.answers = (d.processes id).answers ∨
        p'.free ∧ p'.answers = (d.processes id).answers ++
          (d.processes id).worker.answered call answer) := by
  unfold settles at h
  unfold Deployment.settle
  simp only at h ⊢
  cases hcalling : (d.processes id).calling with
  | none =>
    rw [hcalling] at h
    cases h
  | some call =>
    rw [hcalling] at h
    simp only at h ⊢
    by_cases hended : (d.processes id).ended = true
    · simp only [if_pos hended] at h
      cases h
    · simp only [if_neg hended] at h ⊢
      cases lost with
      | some error =>
        have hsettle : (d.processes id).worker.settle call (.error error) = (w, answer) :=
          Option.some.inj h
        have herror := (d.processes id).worker.settle_lost call error
        rw [hsettle] at herror
        exact ⟨call, .error error, _, rfl, hsettle, rfl, congrArg Prod.fst hsettle,
          Or.inl ⟨hcalling, herror, rfl⟩⟩
      | none =>
        cases hreplies : (d.links id).replies with
        | nil =>
          rw [hreplies] at h
          cases h
        | cons frame replies =>
          rw [hreplies] at h
          have hsettle := Option.some.inj h
          refine ⟨call, .ok frame, _, rfl, hsettle, rfl, ?_⟩
          unfold Process.finish
          simp only [hsettle]
          split_ifs with hfailed
          · exact ⟨rfl, Or.inl ⟨hcalling, Answer.isError_of_failed hfailed, rfl⟩⟩
          · exact ⟨rfl, Or.inr ⟨⟨rfl, by simpa using hended⟩, rfl⟩⟩

end Deployment

namespace Fleet

variable {f f' : Fleet}

/-- Every program stands where its process does. -/
def Tracked (f : Fleet) : Prop := ∀ id, (f.programs id).Tracks (f.deployment.processes id)

/-- The others are left alone by an event of one process. -/
theorem moves_update {deployment : Deployment} {id : ℕ} {p : Process} {g : WorkerProgram}
    (hprocesses : deployment.processes = Function.update f.deployment.processes id p)
    (hm : (f.programs id).Moves (f.deployment.processes id) g p) (other : ℕ) :
    (f.programs other).Moves (f.deployment.processes other)
      (Function.update f.programs id g other) (deployment.processes other) := by
  rw [hprocesses]
  by_cases heq : other = id
  · subst heq
    simpa using hm
  · rw [Function.update_of_ne heq, Function.update_of_ne heq]
    exact .stays

/-- A program of an event that is none of the deployment moves on its own, if at all. -/
theorem undeployed_moves {event : FleetEvent} {id : ℕ} (howner : event.owner = some id)
    (h : f.deploys event = none) :
    (f.programs id).Moves (f.deployment.processes id) (f.program id event)
      (f.deployment.processes id) := by
  cases event with
  | call id' bundle sent =>
    obtain rfl := Option.some.inj howner
    have hcalls : (f.programs id').calls bundle = none := Option.map_eq_none_iff.mp h
    simp only [program, hcalls]
    exact .stays
  | settle id' lost =>
    obtain rfl := Option.some.inj howner
    cases hstage : (f.programs id').stage with
    | exited code =>
      simp only [program]
      split
      · exact .stays
      · simp only [WorkerProgram.settled, hstage]
        exact .stays
    | _ =>
      simp only [deploys, hstage] at h
      cases h
  | opened id' created listed =>
    simp only [program]
    split
    · next hstage => exact .opened created listed hstage
    · exact .stays
  | journal id' faults =>
    simp only [program]
    split
    · next hstage => exact .journalled faults hstage
    · exact .stays
  | crash id' keep => exact .crashed _
  | crashDuring id' faults keep =>
    simp only [program]
    split
    · exact .crashed _
    · exact .stays
  | _ => cases howner

/-- The call of a program goes out if the checks of its worker pass, and fails otherwise. -/
theorem called_moves {id : ℕ} {bundle : EvidenceBundle} {call : Call}
    (hcall : (f.programs id).calls bundle = some call) (sent : Bool) :
    (f.programs id).Moves (f.deployment.processes id) (f.program id (.call id bundle sent))
      (if ((f.deployment.processes id).worker.checks call).isOk then
        (f.deployment.processes id).start call sent
      else f.deployment.processes id) := by
  simp only [program, hcall]
  split_ifs with hchecks
  · rw [hchecks, Bool.and_true]
    exact .called bundle call sent hcall
  · rw [Bool.eq_false_iff.mpr hchecks, Bool.and_false]
    exact .failed bundle call hcall

/-- A call that settles moves the program that made it. -/
theorem settled_moves (id : ℕ) (lost : Option Error) (other : ℕ) :
    (f.programs other).Moves (f.deployment.processes other)
      (Function.update f.programs id (f.program id (.settle id lost)) other)
      ((f.deployment.settle id lost).processes other) := by
  cases hsettles : f.deployment.settles id lost with
  | none =>
    have hwaiting : (f.deployment.settle id lost).processes =
        Function.update f.deployment.processes id (f.deployment.processes id) := by
      rw [Deployment.settle_waiting hsettles, Function.update_eq_self]
    refine moves_update hwaiting ?_ other
    simp only [program, hsettles]
    exact .stays
  | some settled =>
    obtain ⟨w, answer⟩ := settled
    obtain ⟨call, outcome, p', hcalling, hsettle, hprocesses, rfl, hends⟩ :=
      Deployment.settle_settled hsettles
    refine moves_update hprocesses ?_ other
    simp only [program, hsettles]
    have hworker : p'.worker = ((f.deployment.processes id).worker.settle call outcome).1 := by
      rw [hsettle]
    have hanswer : answer = ((f.deployment.processes id).worker.settle call outcome).2 := by
      rw [hsettle]
    rw [hanswer] at hends ⊢
    exact .settled call outcome p' hcalling hworker hends

/-- An event moves the program it belongs to, and no other. -/
theorem perform_moves (h : f.Tracked) {event : FleetEvent} (hs : f.perform event = some f') (id : ℕ) :
    (f.programs id).Moves (f.deployment.processes id) (f'.programs id)
      (f'.deployment.processes id) := by
  unfold Fleet.perform at hs
  obtain ⟨deployment, hdeployment, rfl⟩ := Option.map_eq_some_iff.mp hs
  cases hdeploys : f.deploys event with
  | none =>
    rw [hdeploys] at hdeployment
    obtain rfl := Option.some.inj hdeployment
    cases howner : event.owner with
    | none => exact .stays
    | some id' =>
      exact moves_update (Function.update_eq_self id' _).symm (undeployed_moves howner hdeploys) id
  | some deployed =>
    rw [hdeploys] at hdeployment
    cases event with
    | call id' bundle sent =>
      obtain ⟨call, hcall, rfl⟩ := Option.map_eq_some_iff.mp hdeploys
      obtain rfl := Option.some.inj hdeployment
      obtain ⟨hfree, -, -⟩ := (h id').called hcall sent
      exact moves_update (Deployment.call_free hfree call sent) (called_moves hcall sent) id
    | settle id' lost =>
      obtain rfl : DeploymentEvent.settle id' lost = deployed := by
        unfold deploys at hdeploys
        simp only at hdeploys
        split at hdeploys
        · cases hdeploys
        · exact Option.some.inj hdeploys
      obtain rfl := Option.some.inj hdeployment
      exact settled_moves id' lost id
    | session id' input =>
      obtain rfl := Option.some.inj hdeploys
      have hprocesses := Deployment.perform_processes hdeployment (Or.inl ⟨id', input, rfl⟩)
      show (f.programs id).Moves _ (f.programs id) (deployment.processes id)
      rw [hprocesses]
      exact .stays
    | operate s =>
      obtain rfl := Option.some.inj hdeploys
      have hprocesses := Deployment.perform_processes hdeployment (Or.inr ⟨s, rfl⟩)
      show (f.programs id).Moves _ (f.programs id) (deployment.processes id)
      rw [hprocesses]
      exact .stays
    | _ => cases hdeploys

theorem Tracked.step (h : f.Tracked) {event : FleetEvent} (hs : f.perform event = some f') :
    f'.Tracked := fun id => (h id).moves (perform_moves h hs id)

/-! ### Runs -/

section Runs

variable {config : CoordinatorConfig} {environment : Coordinator.StartEnvironment}
  {disk : Option Text} {options : ℕ → WorkerOptions} {homes : ℕ → History}

/-- The fleets that a run goes through, each with the event it met. -/
def runCalls (config : CoordinatorConfig) (environment : Coordinator.StartEnvironment)
    (disk : Option Text) (options : ℕ → WorkerOptions) (homes : ℕ → History)
    (events : List FleetEvent) : List (Option Fleet × FleetEvent) :=
  calls step (launch config environment disk options homes) events

def runTo (config : CoordinatorConfig) (environment : Coordinator.StartEnvironment)
    (disk : Option Text) (options : ℕ → WorkerOptions) (homes : ℕ → History)
    (events : List FleetEvent) : Option Fleet :=
  run step (launch config environment disk options homes) events

/-- The workers that call in a run. -/
def callers (events : List FleetEvent) : Set ℕ :=
  {id | ∃ bundle sent, FleetEvent.call id bundle sent ∈ events}

/-- The run cannot bring around the epoch it starts from. -/
def withinEpochs (config : CoordinatorConfig) (environment : Coordinator.StartEnvironment)
    (disk : Option Text) (events : List FleetEvent) : Prop :=
  ∀ c ∈ Coordinator.launch config environment disk, c.epoch.value.toNat + events.length < 2 ^ 64

theorem launch_eq_some (h : launch config environment disk options homes = some f) :
    Deployment.launch config environment disk (fun id => (options id).worker) =
        some f.deployment ∧
      f.programs = fun id =>
        { options := options id, history := { homes id with store := none } } := by
  obtain ⟨d, hd, rfl⟩ := Option.map_eq_some_iff.mp h
  exact ⟨hd, rfl⟩

theorem tracked_launch : ∀ f ∈ launch config environment disk options homes, f.Tracked := by
  intro f hf id
  obtain ⟨hlaunch, hprograms⟩ := launch_eq_some hf
  obtain ⟨c, -, hdeployment⟩ := Deployment.launch_eq_some hlaunch
  rw [hprograms, hdeployment]
  exact WorkerProgram.tracks_free ⟨rfl, rfl⟩ ⟨rfl, rfl⟩

theorem run_tracked (events : List FleetEvent) :
    ∀ f ∈ runTo config environment disk options homes events, f.Tracked :=
  run_invariant (P := fun s : Option Fleet => ∀ f ∈ s, f.Tracked) (fun s event h f' hf' => by
    obtain ⟨f, rfl, hs⟩ := Option.bind_eq_some_iff.mp hf'
    exact (h f rfl).step hs) tracked_launch events

theorem deploys_call {event : FleetEvent} {id : ℕ} {call : Call} {sent : Bool}
    (h : f.deploys event = some (.call id call sent)) :
    ∃ bundle, event = .call id bundle sent := by
  cases event with
  | call id' bundle sent' =>
    obtain ⟨call', -, heq⟩ := Option.map_eq_some_iff.mp h
    obtain ⟨rfl, rfl, rfl⟩ := DeploymentEvent.call.inj heq
    exact ⟨bundle, rfl⟩
  | settle id' lost =>
    simp only [deploys] at h
    split at h <;> cases h
  | _ => cases h

/-- What a fleet goes through is a run of its deployment, with the same callers. -/
theorem run_deployment (events : List FleetEvent) :
    ∀ f ∈ runTo config environment disk options homes events, ∃ deployed,
      deployed.length ≤ events.length ∧
        (∀ id call sent, DeploymentEvent.call id call sent ∈ deployed → id ∈ callers events) ∧
        Deployment.runTo config environment disk (fun id => (options id).worker) deployed =
          some f.deployment := by
  induction events using List.reverseRecOn with
  | nil =>
    intro f hf
    exact ⟨[], le_refl _, fun _ _ _ hm => (List.not_mem_nil hm).elim, (launch_eq_some hf).1⟩
  | append_singleton events event ih =>
    intro f' hf'
    change run step _ (events ++ [event]) = some f' at hf'
    unfold run at hf'
    rw [List.foldl_append] at hf'
    obtain ⟨f, hf, hs⟩ := Option.bind_eq_some_iff.mp hf'
    obtain ⟨deployed, hlength, hcallers, hrun⟩ := ih f hf
    have hmore : ∀ id, id ∈ callers events → id ∈ callers (events ++ [event]) := by
      rintro id ⟨bundle, sent, hm⟩
      exact ⟨bundle, sent, List.mem_append_left _ hm⟩
    unfold Fleet.perform at hs
    obtain ⟨deployment, hdeployment, rfl⟩ := Option.map_eq_some_iff.mp hs
    cases hdeploys : f.deploys event with
    | none =>
      rw [hdeploys] at hdeployment
      obtain rfl := Option.some.inj hdeployment
      refine ⟨deployed, ?_, fun id call sent hm => hmore id (hcallers id call sent hm), hrun⟩
      rw [List.length_append]
      exact hlength.trans (Nat.le_add_right _ _)
    | some next =>
      rw [hdeploys] at hdeployment
      refine ⟨deployed ++ [next], ?_, ?_, ?_⟩
      · simpa using hlength
      · intro id call sent hm
        rcases List.mem_append.mp hm with hbefore | hlast
        · exact hmore id (hcallers id call sent hbefore)
        · obtain rfl := List.mem_singleton.mp hlast
          obtain ⟨bundle, rfl⟩ := deploys_call hdeploys
          exact ⟨bundle, sent, List.mem_append_right _ List.mem_cons_self⟩
      · change run Deployment.step _ deployed = _ at hrun
        show run Deployment.step _ (deployed ++ [next]) = _
        unfold run at hrun ⊢
        rw [List.foldl_append, hrun]
        exact hdeployment

/-- What obeys the rule holds along a run of a fleet within the epochs. -/
theorem run_holds {I : Board → Prop} {A : ℕ → Board → Process → Stage → Prop}
    {events : List FleetEvent} (r : Rules I A keepsEpoch (madeBy (callers events)))
    (hl : ∀ d ∈ Deployment.launch config environment disk fun id => (options id).worker,
      Deployment.Holds I A d)
    (h : withinEpochs config environment disk events) :
    ∀ f ∈ runTo config environment disk options homes events,
      Deployment.Holds I A f.deployment := by
  intro f hf
  obtain ⟨deployed, hlength, hcallers, hrun⟩ := run_deployment events f hf
  refine Deployment.run_holds r hl ?_ hcallers _ hrun
  intro c hc
  have hshort := h c hc
  omega

/-- A program evaluated the decision, and published it, under the grant of the record it names,
which is live, of the current epoch and not expired. One that is no refusal rests on evidence under
that grant, of before its expiry wherever the clock reads a positive instant. -/
def warrants (f : Fleet) (publish : MessageDecisionPublish) (now : Timestamp) : Prop :=
  ∃ id, ∃ e ∈ (f.programs id).evaluations, ∃ record ∈ f.deployment.coordinator.leases.entries,
    record.key = publish.lease.value ∧ record.live ∧
      record.grant.epoch = f.deployment.coordinator.epoch ∧ ¬record.grant.expiresAt < now ∧
      publish = ((f.deployment.processes id).worker.decisionMessage (e.1.evaluate e.2).1).delivered ∧
      (e.1.evaluate e.2).1.under record.grant ∧
      (publish.outcome ≠ .refused → e.2.under record.grant ∧
        (0 < now.nanos → ¬e.2.now > record.grant.expiresAt))

/-- The leases of a fleet are each of a destination. -/
theorem run_destined {events : List FleetEvent}
    (hd : distinctIncarnations (fun id => (options id).worker) (callers events))
    (h : withinEpochs config environment disk events) :
    ∀ f ∈ runTo config environment disk options homes events, f.deployment.coordinator.destined := by
  intro f hf
  have hrules := (coherent_rules hd).board (J := fun b => b.coordinator.destined)
    fun b o c' hb hdestined hw hp _ => by
      rw [Board.advance_coordinator]
      cases o with
      | none =>
        obtain rfl := Option.some.inj hp
        exact hdestined
      | some s => exact Coordinator.destined_step hb.sound hdestined hp
  have hlaunched : ∀ d ∈ Deployment.launch config environment disk fun id => (options id).worker,
      Deployment.Holds (fun b => b.Coherent ∧ b.coordinator.destined)
        (Process.Coherent (fun id => (options id).worker) (callers events)) d := by
    intro d hlaunch
    obtain ⟨hboard, hprocesses⟩ := Deployment.coherent_launch d hlaunch
    obtain ⟨c, hc, rfl⟩ := Deployment.launch_eq_some hlaunch
    obtain ⟨environment', disk', hstart⟩ := Coordinator.started_of_launch hc
    refine ⟨⟨hboard, fun record hm => ?_⟩, hprocesses⟩
    change record ∈ c.leases.entries at hm
    rw [(Coordinator.start_leases hstart).1] at hm
    cases hm
  exact (run_holds hrules hlaunched h f hf).board.2

/-- Over every interleaving of a fleet, the coordinator accepts nothing but decisions that a program
evaluated, and published, under the grant that is live. -/
theorem run_accepted_evaluated (config : CoordinatorConfig)
    (environment : Coordinator.StartEnvironment) (disk : Option Text) (options : ℕ → WorkerOptions)
    (homes : ℕ → History) (events : List FleetEvent)
    (hd : distinctIncarnations (fun id => (options id).worker) (callers events))
    (h : withinEpochs config environment disk events) :
    ∀ call ∈ runCalls config environment disk options homes events, ∀ f ∈ call.1, ∀ publish now,
      f.performs call.2 = some (.decisionPublish publish now) →
        (f.deployment.coordinator.publishDecision publish now).2.accepted = true →
          f.warrants publish now := by
  intro call hc f hf publish now hs haccepted
  obtain ⟨pre, post, hevents, hpre⟩ := (mem_calls_iff step (t := call.1) (i := call.2)).mp hc
  have hrun : f ∈ runTo config environment disk options homes pre := by
    rw [hpre] at hf
    exact hf
  have hprefixed : callers pre ⊆ callers events := by
    rintro id ⟨bundle, sent, hm⟩
    exact ⟨bundle, sent, hevents ▸ List.mem_append_left _ hm⟩
  have hshort : withinEpochs config environment disk pre := by
    intro c hl
    have hfits := h c hl
    rw [hevents, List.length_append] at hfits
    omega
  have hholds := run_holds (coherent_rules (hd.mono hprefixed)) Deployment.coherent_launch hshort f hrun
  have htracked := run_tracked pre f hrun
  obtain ⟨deployed, -, hperforms⟩ := Option.bind_eq_some_iff.mp hs
  obtain ⟨id, input, stage, next, hcoherent, hturn⟩ :=
    hholds.turn (coherent_rules (hd.mono hprefixed)) hperforms rfl rfl
  obtain ⟨decision, hcalling, -, rfl, hsynced⟩ := hcoherent.agrees.turn_decides hturn rfl
  obtain ⟨⟨-, hepoch⟩, e, he, hunder, rfl⟩ := (htracked id).publishes decision hcalling
  obtain ⟨record, hfind, hrefusal⟩ := Coordinator.accepted_iff.mp haccepted
  obtain ⟨hlive, hcurrent, -, -, hexpires, -⟩ := Coordinator.publishRefusal_eq_none.mp hrefusal
  obtain ⟨hm, hkey⟩ := KeyedTable.find_eq_some.mp hfind
  obtain ⟨-, hgrant⟩ := hsynced.record hholds.board.positive hm hkey
  have hdestined := run_destined (hd.mono hprefixed) hshort f hrun record hm
  rw [← hgrant] at hunder
  refine ⟨id, e, he, record, hm, hkey, hlive, ?_, hexpires, rfl, hunder.decision e.2,
    fun houtcome => ?_⟩
  · rw [hgrant, ← hepoch]
    exact hcurrent
  · have hevidence := hunder.evidence hdestined houtcome
    exact ⟨hevidence, fun hnow =>
      hevidence.2.2.2.2 (Timestamp.valid_of_not_lt hnow hexpires)⟩

end Runs

/-! ### A sample run -/

/-- A call of a program that nothing disturbs. -/
def undisturbed (id : ℕ) (bundle : EvidenceBundle) (now : Timestamp) : List FleetEvent :=
  .call id bundle true :: List.replicate 7 (.session id { received := .ok {}, now }) ++
    [.settle id none]

/-- Incarnations of one worker that serve the destination of the sample windows. -/
def sampleOptions (id : ℕ) : WorkerOptions :=
  { worker := { worker := ⟨1⟩, boot := ⟨UInt64.ofNat (id + 1)⟩, destination := ⟨1⟩ }
    cycles := 2
    durable := some { directory := ascii "d" } }

/-- A program comes up and goes through one of its cycles. -/
def serving : List FleetEvent :=
  undisturbed 0 {} ⟨1000⟩ ++ undisturbed 0 {} ⟨2000⟩ ++ [.opened 0 true true] ++
    undisturbed 0 Governor.incidentWindow ⟨3000⟩ ++ [.journal 0 {}]

theorem serving_distinct :
    distinctIncarnations (fun id => (sampleOptions id).worker) (callers serving) := by
  have hcallers : ∀ id ∈ callers serving, id = 0 := by
    rintro id ⟨bundle, sent, hm⟩
    simp [serving, undisturbed] at hm
    omega
  intro i hi j hj _
  rw [hcallers i hi, hcallers j hj]

theorem serving_within : withinEpochs {} {} none serving := by
  unfold withinEpochs
  decide +kernel

/-- The event has the coordinator accept a decision. -/
def accepts (f : Fleet) (event : FleetEvent) : Bool :=
  match f.performs event with
  | some (.decisionPublish publish now) =>
    (f.deployment.coordinator.publishDecision publish now).2.accepted
  | _ => false

theorem exists_of_accepts {event : FleetEvent} (h : f.accepts event = true) :
    ∃ publish now, f.performs event = some (.decisionPublish publish now) ∧
      (f.deployment.coordinator.publishDecision publish now).2.accepted = true := by
  unfold accepts at h
  split at h
  · next publish now hs => exact ⟨publish, now, hs, h⟩
  · cases h

theorem run_accepted_evaluated_serving :
    ∃ call ∈ runCalls {} {} none sampleOptions (fun _ => {}) serving, ∃ f ∈ call.1, ∃ publish now,
      f.performs call.2 = some (.decisionPublish publish now) ∧ f.warrants publish now := by
  -- the decision is dispatched by the twenty-second event
  have hcall : (runTo {} {} none sampleOptions (fun _ => {}) (serving.take 21),
      FleetEvent.session 0 { received := .ok {}, now := ⟨3000⟩ }) ∈
        runCalls {} {} none sampleOptions (fun _ => {}) serving :=
    (mem_calls_iff step).mpr ⟨serving.take 21, serving.drop 22, rfl, rfl⟩
  have haccepts : (runTo {} {} none sampleOptions (fun _ => {}) (serving.take 21)).any (fun f =>
      f.accepts (.session 0 { received := .ok {}, now := ⟨3000⟩ })) = true := by
    decide +kernel
  obtain ⟨f, hruns, haccepted⟩ := (Option.any_eq_true _ _).mp haccepts
  obtain ⟨publish, now, hs, haccepted⟩ := exists_of_accepts haccepted
  have hf : f ∈ runTo {} {} none sampleOptions (fun _ => {}) (serving.take 21) := hruns
  refine ⟨_, hcall, ?_⟩
  dsimp only
  refine ⟨f, hf, publish, now, hs, ?_⟩
  exact run_accepted_evaluated {} {} none sampleOptions (fun _ => {}) serving serving_distinct
    serving_within _ hcall f hf publish now hs haccepted

end Fleet

end IncastGovernor
