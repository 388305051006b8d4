import IncastGovernor.Worker.Runs

/-! Delivery of decisions. The coordinator answers the decisions of a worker in the order they
were published, each at most once, and the worker learns the answers in that order. At most the
last decision is in doubt: published, and perhaps decided, but not answered. -/

namespace IncastGovernor

open Foundation

open Coordinator (Section)

/-- The decision comes from the incarnation. -/
def WorkerConfig.sends (config : WorkerConfig) (message : MessageDecisionPublish) : Prop :=
  message.boot = config.boot ∧ message.worker = config.worker

instance (config : WorkerConfig) (message : MessageDecisionPublish) :
    Decidable (config.sends message) :=
  inferInstanceAs (Decidable (message.boot = config.boot ∧ message.worker = config.worker))

/-- The decisions of an incarnation, as the coordinator answered them. -/
def decisionsOf (config : WorkerConfig) (log : List (MessageDecisionPublish × Bool)) :
    List (MessageDecisionPublish × Bool) :=
  log.filter fun entry => config.sends entry.1

/-- Answers as the coordinator gave them. -/
def told (answers : List (MessageDecisionPublish × MessageDecisionAck)) :
    List (MessageDecisionPublish × Bool) :=
  answers.map fun answer => (answer.1.delivered, answer.2.accepted)

theorem told_append (xs ys : List (MessageDecisionPublish × MessageDecisionAck)) :
    told (xs ++ ys) = told xs ++ told ys := List.map_append

theorem told_messages (answers : List (MessageDecisionPublish × MessageDecisionAck)) :
    (told answers).map Prod.fst = (answers.map Prod.fst).map MessageDecisionPublish.delivered := by
  simp [told, Function.comp_def]

/-! ### Decisions of a section -/

namespace Coordinator

variable {c : Coordinator} {s : Section}

theorem published_of_operates (h : s.operates = true) : c.published s = [] := by
  cases s <;> first | rfl | cases h

end Coordinator

namespace GovernorWorker

variable {w : GovernorWorker}

theorem settle_sequence (call : Call) (reply : Outcome Frame) :
    (w.settle call reply).1.sequence = w.sequence := by
  cases reply with
  | error error => rfl
  | ok frame =>
    cases call <;>
      simp only [settle, reply, Prod.map_fst, id, handshakeReply, leaseReply, renewReply, grantReply,
        publishReply, heartbeatReply] <;>
      repeat' split
    all_goals rfl

/-- A call publishes its decision, under the worker's incarnation. -/
theorem published_dispatched (c : Coordinator) (call : Call) (input : Input) :
    ((c.published (w.dispatched input call)).map Prod.fst =
        (w.publishes call).map MessageDecisionPublish.delivered) ∧
      ∀ entry ∈ c.published (w.dispatched input call), w.config.sends entry.1 := by
  cases call with
  | publish decision =>
    refine ⟨rfl, fun entry hm => ?_⟩
    obtain rfl := List.mem_singleton.mp hm
    exact ⟨rfl, rfl⟩
  | _ => exact ⟨rfl, fun entry hm => by cases hm⟩

/-- The reply to a call answers its decision as the section decided it. -/
theorem answered_dispatched {c : Coordinator} {call : Call} {input : Input} {frame : Frame}
    (h : c.replyFrame (w.dispatched input call) = some frame) :
    told (w.answered call (w.settle call (.ok frame)).2) = c.published (w.dispatched input call) ∧
      (w.answered call (w.settle call (.ok frame)).2).map Prod.fst = w.publishes call := by
  cases call with
  | publish decision =>
    obtain rfl := Option.some.inj h
    rw [settle_ack]
    exact ⟨rfl, rfl⟩
  | _ => exact ⟨rfl, rfl⟩

end GovernorWorker

namespace Process

variable {c c' : Coordinator} {p : Process} {stage next : Stage} {input : Input} {o : Option Section}
  {s : Section}

/-- What a turn publishes comes from the worker of its exchange, which waits for the answer. -/
theorem Agrees.turn_publishes (h : p.Agrees c stage) (hturn : Turn c input stage o next)
    (hs : s ∈ o) {entry : MessageDecisionPublish × Bool} (he : entry ∈ c.published s) :
    p.calling ≠ none ∧ p.worker.config.sends entry.1 := by
  cases s with
  | decisionPublish publish now =>
    obtain ⟨decision, hcalling, -, hpublish, -⟩ := h.turn_decides hturn hs
    obtain rfl := List.mem_singleton.mp he
    rw [hcalling, hpublish]
    exact ⟨Option.some_ne_none _, rfl, rfl⟩
  | _ => cases he

/-! ### A process and its decisions -/

/-- The decision of the call under way. -/
def unanswered (p : Process) : List MessageDecisionPublish :=
  match p.calling with
  | none => []
  | some call => p.worker.publishes call

/-- What the coordinator decided and the process has not learned yet: the reply on its way, or
the decision of an exchange that was lost. -/
def doubts (p : Process) : Stage → List (MessageDecisionPublish × Bool) → Prop
  | .composed frame, rest | .replied frame, rest =>
    ∃ call, p.calling = some call ∧
      rest = told (p.worker.answered call (p.worker.settle call (.ok frame)).2) ∧
      (p.worker.answered call (p.worker.settle call (.ok frame)).2).map Prod.fst = p.unanswered
  | .dropped, rest =>
    rest = [] ∨ rest.map Prod.fst = p.unanswered.map MessageDecisionPublish.delivered
  | _, rest => rest = []

/-- A process has published what was answered and the decision of its call; the coordinator has
decided what was answered and what is in doubt. -/
structure Delivers (log : List (MessageDecisionPublish × Bool)) (p : Process) (stage : Stage) :
    Prop where
  published : p.published = p.answers.map Prod.fst ++ p.unanswered
  decided : ∃ rest, log = told p.answers ++ rest ∧ p.doubts stage rest

variable {log : List (MessageDecisionPublish × Bool)} {config : WorkerConfig} {frame : Frame}

theorem unanswered_of_idle (h : p.calling = none) : p.unanswered = [] := by
  simp only [unanswered, h]

/-- Between two calls nothing is in doubt. -/
theorem Delivers.resting (h : p.Delivers log stage) (hcalling : p.calling = none)
    (hquiet : stage = .idle ∨ stage = .dropped) :
    p.published = p.answers.map Prod.fst ∧ log = told p.answers := by
  obtain ⟨rest, rfl, hrest⟩ := h.decided
  have hnone : rest = [] := by
    rcases hquiet with rfl | rfl
    · exact hrest
    · rcases hrest with hnil | hmap
      · exact hnil
      · simpa [unanswered_of_idle hcalling] using hmap
  refine ⟨?_, by rw [hnone, List.append_nil]⟩
  rw [h.published, unanswered_of_idle hcalling, List.append_nil]

theorem delivers_resting (hcalling : p.calling = none) (hquiet : stage = .idle ∨ stage = .dropped)
    (hpublished : p.published = p.answers.map Prod.fst) (hlog : log = told p.answers) :
    p.Delivers log stage where
  published := by rw [unanswered_of_idle hcalling, List.append_nil, hpublished]
  decided := by
    refine ⟨[], by rw [hlog, List.append_nil], ?_⟩
    rcases hquiet with rfl | rfl
    · rfl
    · exact Or.inl rfl

/-- An exchange that is lost leaves its decision in doubt. -/
theorem Delivers.drop (h : p.Delivers log stage) : p.Delivers log .dropped where
  published := h.published
  decided := by
    obtain ⟨rest, hlog, hrest⟩ := h.decided
    refine ⟨rest, hlog, ?_⟩
    cases stage with
    | composed frame | replied frame =>
      obtain ⟨call, -, rfl, hanswered⟩ := hrest
      exact Or.inr (by rw [told_messages, hanswered])
    | dropped => exact hrest
    | _ => exact Or.inl hrest

/-- The worker learns the answer. -/
theorem Delivers.finish (h : p.Delivers log (.replied frame)) {call : Call}
    (hcalling : p.calling = some call) {q : Process} (hq : q.calling = none)
    (hpublished : q.published = p.published)
    (hanswers : q.answers = p.answers ++ p.worker.answered call (p.worker.settle call (.ok frame)).2)
    (hquiet : stage = .idle ∨ stage = .dropped) : q.Delivers log stage := by
  obtain ⟨rest, hlog, called, hcalled, rfl, hanswered⟩ := h.decided
  obtain rfl := Option.some.inj (hcalled.symm.trans hcalling)
  refine delivers_resting hq hquiet ?_ ?_
  · rw [hpublished, hanswers, h.published, List.map_append, hanswered]
  · rw [hanswers, told_append, hlog]

/-- A call starts with its decision unanswered. -/
theorem delivers_start (hquiet : stage = .idle ∨ stage = .dropped)
    (hpublished : p.published = p.answers.map Prod.fst) (hlog : log = told p.answers) (call : Call)
    (sent : Bool) : (p.start call sent).Delivers log (p.startStage stage call sent) := by
  have hstart : (p.start call sent).published =
      (p.start call sent).answers.map Prod.fst ++ (p.start call sent).unanswered :=
    congrArg (fun x => x ++ (p.worker.sending call).publishes call) hpublished
  have hopen : (p.start call sent).Delivers log
      (if sent then .requested ((p.worker.sending call).frame call) else .idle) := by
    refine ⟨hstart, [], by rw [List.append_nil]; exact hlog, ?_⟩
    cases sent <;> rfl
  rcases hquiet with rfl | rfl
  · cases call <;> exact hopen
  · cases call with
    | connectAndHandshake => exact hopen
    | _ => exact ⟨hstart, [], by rw [List.append_nil]; exact hlog, Or.inl rfl⟩

/-- A turn of its own exchange decides no more than the decision of the call. -/
theorem Delivers.turn (h : p.Delivers (decisionsOf config log) stage) (ha : p.Agrees c stage)
    (hturn : Turn c input stage o next) (hconfig : p.worker.config = config) :
    p.Delivers (decisionsOf config (log ++ o.toList.flatMap c.published)) next := by
  have hquiet : (∀ s ∈ o, c.published s = []) →
      decisionsOf config (log ++ o.toList.flatMap c.published) = decisionsOf config log := by
    intro hnone
    cases o with
    | none => simp
    | some s => simp [hnone s rfl]
  have hoperates : (∀ s ∈ o, s.operates = true) →
      decisionsOf config (log ++ o.toList.flatMap c.published) = decisionsOf config log :=
    fun ho => hquiet fun s hs => Coordinator.published_of_operates (ho s hs)
  cases hturn with
  | rested _ _ operates => exact (hoperates operates).symm ▸ h
  | dropped _ _ operates => exact (hoperates operates).symm ▸ h.drop
  | sent frame _ operates => exact (hoperates operates).symm ▸ ⟨h.published, h.decided⟩
  | denied frame request error refused dispatched denies =>
    rw [hquiet fun s hs => Option.some.inj hs ▸ rfl]
    exact ⟨h.published, h.decided⟩
  | counted error =>
    rw [hquiet fun s hs => Option.some.inj hs ▸ rfl]
    obtain ⟨rest, hlog, rfl⟩ := h.decided
    cases ha with
    | resting _ calling quiet synced => simp at quiet
    | denying _ calling synced =>
      refine ⟨h.published, [], hlog, .acquireLease, calling, rfl, ?_⟩
      simp only [unanswered, calling]
      rfl
  | served frame reply s dispatched replies =>
    obtain ⟨rest, hlog, rfl⟩ := h.decided
    cases ha with
    | resting _ calling quiet synced => simp at quiet
    | requested call calling synced =>
      rw [p.worker.section_frame] at dispatched
      obtain rfl := Option.some.inj dispatched
      obtain ⟨htold, hmessages⟩ := GovernorWorker.answered_dispatched replies
      have hsends := (GovernorWorker.published_dispatched (w := p.worker) c call input).2
      refine ⟨h.published, _, ?_, call, calling, htold.symm, ?_⟩
      · simp only [decisionsOf, Option.toList_some, List.flatMap_singleton, List.filter_append]
        rw [show log.filter _ = decisionsOf config log from rfl, hlog, List.append_nil]
        congr 1
        refine List.filter_eq_self.mpr fun entry hm => ?_
        rw [← hconfig]
        exact decide_eq_true (hsends entry hm)
      · rw [hmessages]
        simp only [unanswered, calling]

/-- A turn of another worker's exchange decides nothing of this one's. -/
theorem decisionsOf_other (h : p.Agrees c stage) (hturn : Turn c input stage o next)
    (hother : p.calling ≠ none → ¬(p.worker.config.boot = config.boot ∧
      p.worker.config.worker = config.worker)) :
    decisionsOf config (log ++ o.toList.flatMap c.published) = decisionsOf config log := by
  unfold decisionsOf
  rw [List.filter_append, List.append_right_eq_self]
  refine List.filter_eq_nil_iff.mpr fun entry hm => ?_
  obtain ⟨s, hs, hentry⟩ := List.mem_flatMap.mp hm
  obtain ⟨hcalling, hboot, hworker⟩ := h.turn_publishes hturn (Option.mem_toList.mp hs) hentry
  simp only [decide_eq_true_eq]
  rintro ⟨hboot', hworker'⟩
  exact hother hcalling ⟨hboot.symm.trans hboot', hworker.symm.trans hworker'⟩

/-! ### Sequences -/

/-- The decisions of a worker are numbered from one on. -/
structure Numbered (p : Process) : Prop where
  sequence : p.worker.sequence = UInt64.ofNat p.published.length
  sequences : p.published.map MessageDecisionPublish.sequence =
    (List.range p.published.length).map fun k => UInt64.ofNat (k + 1)

theorem Numbered.start (h : p.Numbered) (call : Call) (sent : Bool) :
    (p.start call sent).Numbered := by
  cases call with
  | publish decision =>
    have hnext : p.worker.sequence + 1 = UInt64.ofNat (p.published.length + 1) := by
      rw [h.sequence, UInt64.ofNat_add]
      rfl
    refine ⟨?_, ?_⟩
    · simpa [Process.start, GovernorWorker.publishes, GovernorWorker.sending] using hnext
    · simp only [Process.start, GovernorWorker.publishes, List.map_append, List.length_append,
        List.map_cons, List.map_nil, List.length_singleton, List.range_succ, h.sequences]
      exact congrArg (fun x => _ ++ [x]) hnext
  | _ => simpa [Process.start, GovernorWorker.publishes, GovernorWorker.sending] using ⟨h.1, h.2⟩

theorem Numbered.settled (h : p.Numbered) (call : Call) (reply : Outcome Frame) {q : Process}
    (hworker : q.worker = (p.worker.settle call reply).1) (hpublished : q.published = p.published) :
    q.Numbered := by
  refine ⟨?_, ?_⟩
  · rw [hworker, GovernorWorker.settle_sequence, hpublished]
    exact h.sequence
  · rw [hpublished]
    exact h.sequences

end Process

/-! ### Runs -/

theorem Board.advance_decisions (b : Board) (c' : Coordinator) (o : Option Section) :
    (b.advance c' o).decisions = b.decisions ++ o.toList.flatMap b.coordinator.published := by
  cases o with
  | none => simp [Board.advance]
  | some s => simp [Board.advance]

/-- A process that calls is level with the log of the coordinator. -/
structure Process.Level (workers : ℕ → WorkerConfig) (ids : Set ℕ) (id : ℕ) (b : Board) (p : Process)
    (stage : Stage) : Prop where
  delivers : id ∈ ids → p.Delivers (decisionsOf (workers id) b.decisions) stage
  numbered : p.Numbered

section Rules

variable {workers : ℕ → WorkerConfig} {ids : Set ℕ}

theorem level_adds (hd : distinctIncarnations workers ids) :
    Rules.Adds Board.Coherent (Process.Coherent workers ids) (Process.Level workers ids) keepsEpoch
      (madeBy ids) where
  operated := by
    rintro b s c' id p stage hb ho hw hp h ⟨hlevel, hnumbered⟩
    refine ⟨fun hid => ?_, hnumbered⟩
    rw [Board.advance_decisions, Option.toList_some, List.flatMap_singleton,
      Coordinator.published_of_operates ho, List.append_nil]
    exact hlevel hid
  turned := by
    rintro b input o c' id p stage next hb h ⟨hlevel, hnumbered⟩ hturn hw hp
    refine ⟨fun hid => ?_, hnumbered⟩
    rw [Board.advance_decisions]
    exact (hlevel hid).turn h.agrees hturn h.config
  other := by
    rintro b input o c' id p stage next id' p' stage' hb h hturn hw hp hne h' ⟨hlevel, hnumbered⟩
    refine ⟨fun hid' => ?_, hnumbered⟩
    rw [Board.advance_decisions, Process.decisionsOf_other h.agrees hturn]
    · exact hlevel hid'
    · rintro hcalling ⟨hboot, hworker⟩
      rw [h.config] at hboot hworker
      exact hne (hd hid' (h.caller hcalling) (Prod.ext hboot.symm hworker.symm))
  started := by
    rintro b id p stage call sent hb h ⟨hlevel, hnumbered⟩ hfree hmade hchecks
    refine ⟨fun hid => ?_, hnumbered.start call sent⟩
    have hquiet := (h.agrees.resting_of_idle hfree.1).1
    obtain ⟨hpublished, hlog⟩ := (hlevel hid).resting hfree.1 hquiet
    exact Process.delivers_start hquiet hpublished hlog call sent
  failed := by
    rintro b id p stage call error hb h ⟨hlevel, hnumbered⟩ hcalling hrunning
    exact ⟨fun hid => ⟨(hlevel hid).published, (hlevel hid).decided⟩,
      hnumbered.settled call (.error error) rfl rfl⟩
  finished := by
    rintro b id p call frame hb h ⟨hlevel, hnumbered⟩ hcalling hrunning
    cases h.agrees with
    | resting _ calling quiet _ => simp at quiet
    | replied call' _ calling settles =>
      obtain rfl := Option.some.inj (calling.symm.trans hcalling)
      have hnext : (p.finish call' frame).Numbered := by
        rw [p.finish_answered settles.1]
        exact hnumbered.settled call' (.ok frame) rfl rfl
      rw [p.finish_answered settles.1] at hnext ⊢
      exact ⟨⟨fun hid => (hlevel hid).finish hcalling rfl rfl rfl (Or.inl rfl), hnext⟩,
        ⟨fun hid => (hlevel hid).finish hcalling rfl rfl rfl (Or.inr rfl), hnext⟩⟩
  refused := by
    rintro b id p call error hb h ⟨hlevel, hnumbered⟩ hcalling hrunning
    rw [p.finish_error]
    exact ⟨fun hid => ⟨(hlevel hid).published, (hlevel hid).decided⟩,
      ⟨hnumbered.sequence, hnumbered.sequences⟩⟩
  closed := by
    rintro b id p stage hb h ⟨hlevel, hnumbered⟩ hfree
    refine ⟨fun hid => ?_, ⟨hnumbered.sequence, hnumbered.sequences⟩⟩
    have hquiet := (h.agrees.resting_of_idle hfree.1).1
    obtain ⟨hpublished, hlog⟩ := (hlevel hid).resting hfree.1 hquiet
    exact Process.delivers_resting hfree.1 hquiet hpublished hlog

theorem level_rules (hd : distinctIncarnations workers ids) :
    Rules Board.Coherent
      (fun id b p stage => p.Coherent workers ids id b stage ∧ p.Level workers ids id b stage)
      keepsEpoch (madeBy ids) :=
  (coherent_rules hd).add (level_adds hd)

end Rules

/-- The decisions of a process are delivered once at most, in order, and answered truly: what it
was told is a prefix of what the coordinator decided, this a prefix of what it published, and one
publication at most is in doubt, none between two calls. The publications are numbered from one
on. -/
structure Process.Delivered (config : WorkerConfig) (log : List (MessageDecisionPublish × Bool))
    (p : Process) : Prop where
  told_prefix : told p.answers <+: decisionsOf config log
  decided_prefix : (decisionsOf config log).map Prod.fst <+:
    p.published.map MessageDecisionPublish.delivered
  doubt : p.published.length ≤ p.answers.length + 1
  settled : p.calling = none →
    decisionsOf config log = told p.answers ∧ p.published = p.answers.map Prod.fst
  sequences : p.published.map MessageDecisionPublish.sequence =
    (List.range p.published.length).map fun k => UInt64.ofNat (k + 1)

namespace Process

variable {p : Process} {stage : Stage} {log : List (MessageDecisionPublish × Bool)}

theorem unanswered_length (p : Process) : p.unanswered.length ≤ 1 := by
  unfold unanswered
  cases p.calling with
  | none => exact Nat.zero_le _
  | some call => cases call <;> simp [GovernorWorker.publishes]

/-- What is in doubt is the decision of the call, if anything. -/
theorem doubts_messages {rest : List (MessageDecisionPublish × Bool)} (h : p.doubts stage rest) :
    rest.map Prod.fst <+: p.unanswered.map MessageDecisionPublish.delivered := by
  have hnil : rest = [] → rest.map Prod.fst <+: p.unanswered.map MessageDecisionPublish.delivered := by
    rintro rfl
    exact List.nil_prefix
  cases stage with
  | composed frame | replied frame =>
    obtain ⟨call, -, rfl, hanswered⟩ := h
    rw [told_messages, hanswered]
  | dropped =>
    rcases h with hrest | hrest
    · exact hnil hrest
    · rw [hrest]
  | _ => exact hnil h

theorem Delivers.delivered {config : WorkerConfig} (h : p.Delivers (decisionsOf config log) stage)
    (hn : p.Numbered) (hidle : p.calling = none → stage = .idle ∨ stage = .dropped) :
    p.Delivered config log := by
  obtain ⟨rest, hlog, hrest⟩ := h.decided
  refine ⟨⟨rest, hlog.symm⟩, ?_, ?_, fun hcalling => ?_, hn.sequences⟩
  · rw [hlog, h.published, List.map_append, List.map_append, told_messages]
    exact (List.prefix_append_right_inj _).mpr (doubts_messages hrest)
  · have hlength := p.unanswered_length
    rw [h.published, List.length_append, List.length_map]
    omega
  · exact (h.resting hcalling (hidle hcalling)).symm

end Process

namespace Deployment

section Runs

variable {config : CoordinatorConfig} {environment : Coordinator.StartEnvironment}
  {disk : Option Text} {workers : ℕ → WorkerConfig} {ids : Set ℕ}

theorem level_launch : ∀ d ∈ launch config environment disk workers,
    Holds Board.Coherent
      (fun id b p stage => p.Coherent workers ids id b stage ∧ p.Level workers ids id b stage) d := by
  rintro d hd
  obtain ⟨hboard, hprocesses⟩ := @coherent_launch config environment disk workers ids d hd
  obtain ⟨c, hc, rfl⟩ := launch_eq_some hd
  refine ⟨hboard, fun id => ?_⟩
  obtain ⟨stage, hwires, hcoherent⟩ := hprocesses id
  have hquiet := (hcoherent.agrees.resting_of_idle rfl).1
  exact ⟨stage, hwires, hcoherent,
    fun hid => Process.delivers_resting rfl hquiet rfl rfl, ⟨rfl, rfl⟩⟩

end Runs

/-- Over every interleaving of a deployment, with requests, replies and connections lost at any
point, every decision is delivered once at most, in order, and answered truly. -/
theorem run_decisions_delivered (config : CoordinatorConfig)
    (environment : Coordinator.StartEnvironment) (disk : Option Text) (workers : ℕ → WorkerConfig)
    (events : List DeploymentEvent) (hd : distinctIncarnations workers (callers events))
    (h : withinEpochs config environment disk events) :
    ∀ d ∈ runTo config environment disk workers events, ∀ id ∈ callers events,
      (d.processes id).Delivered (workers id) d.decisions := by
  intro d hrun id hid
  have hholds := run_holds (level_rules hd) level_launch h (fun _ call sent hm => ⟨call, sent, hm⟩)
  obtain ⟨stage, -, hcoherent, hlevel⟩ := (hholds d hrun).processes id
  exact (hlevel.delivers hid).delivered hlevel.numbered fun hcalling =>
    (hcoherent.agrees.resting_of_idle hcalling).1

theorem run_decisions_delivered_superseding :
    ∃ d, runTo {} {} none sampleWorkers superseding = some d ∧
      (d.processes 0).answers.length = 2 ∧ (d.processes 0).Delivered (sampleWorkers 0) d.decisions := by
  obtain ⟨d, hd, hanswers⟩ :=
    sample_meets superseding (fun d => (d.processes 0).answers.length = 2) (by decide +kernel)
  exact ⟨d, hd, of_decide_eq_true hanswers,
    run_decisions_delivered {} {} none sampleWorkers superseding superseding_distinct
      superseding_within d hd 0 superseding_calls⟩

end Deployment

end IncastGovernor
