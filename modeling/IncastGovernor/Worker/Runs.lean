import IncastGovernor.Foundation.BoundedRun
import IncastGovernor.Worker.Coherence

/-! Runs of a deployment. Seen from the coordinator a run is a run of its sections, so what holds
of those under every interleaving holds here. A run from an epoch that it cannot bring around
keeps every invariant that obeys the rule. -/

namespace IncastGovernor

open Foundation

open Coordinator (Section)

namespace Deployment

variable {d d' : Deployment} {event : DeploymentEvent}

/-! ### The coordinator of a deployment -/

theorem call_board (d : Deployment) (id : ℕ) (call : Call) (sent : Bool) :
    (d.call id call sent).board = d.board := by
  unfold Deployment.call
  by_cases hbusy : (d.processes id).ended ∨ (d.processes id).calling.isSome
  · simp only [if_pos hbusy]
  simp only [if_neg hbusy]
  cases (d.processes id).worker.checks call with
  | error error => rfl
  | ok checked => cases call <;> rfl

theorem settle_board (d : Deployment) (id : ℕ) (lost : Option Error) :
    (d.settle id lost).board = d.board := by
  unfold Deployment.settle
  simp only
  split
  · rfl
  · by_cases hended : (d.processes id).ended
    · simp only [if_pos hended]
    · simp only [if_neg hended]
      split <;> rfl

theorem close_board (d : Deployment) (id : ℕ) : (d.close id).board = d.board := by
  unfold Deployment.close
  simp only
  split_ifs <;> rfl

/-- What leaves the board alone performs no section. -/
theorem board_of_same (h : d'.board = d.board) :
    Server.performed d.coordinator none = some (d.logged d' none).coordinator ∧
      (d.logged d' none).board = d.board.advance (d.logged d' none).coordinator none := by
  have hc : d'.coordinator = d.coordinator := congrArg Board.coordinator h
  refine ⟨congrArg some hc.symm, h.trans ?_⟩
  show d.board = { d.board with coordinator := d'.coordinator }
  rw [hc]
  rfl

/-- An event takes the coordinator and its logs through the section it performs. -/
theorem perform_board (hs : d.perform event = some d') :
    Server.performed d.coordinator (d.performs event) = some d'.coordinator ∧
      d'.board = d.board.advance d'.coordinator (d.performs event) := by
  unfold Deployment.perform at hs
  obtain ⟨next, hnext, rfl⟩ := Option.map_eq_some_iff.mp hs
  cases event with
  | call id call sent =>
    obtain rfl := Option.some.inj hnext
    exact board_of_same (d.call_board id call sent)
  | settle id lost =>
    obtain rfl := Option.some.inj hnext
    exact board_of_same (d.settle_board id lost)
  | close id =>
    obtain rfl := Option.some.inj hnext
    exact board_of_same (d.close_board id)
  | operate s =>
    simp only [performs, Deployment.operate] at hnext ⊢
    by_cases ho : s.operates = true
    · simp only [if_pos ho] at hnext ⊢
      obtain ⟨c', hc', rfl⟩ := Option.map_eq_some_iff.mp hnext
      exact ⟨hc', rfl⟩
    · simp only [if_neg ho] at hnext ⊢
      obtain rfl := Option.some.inj hnext
      exact ⟨rfl, rfl⟩
  | session id given =>
    simp only [performs, Deployment.session] at hnext ⊢
    cases ha : (d.links id).arriving (d.server.threads id) given with
    | none =>
      simp only [ha] at hnext ⊢
      obtain rfl := Option.some.inj hnext
      exact ⟨rfl, rfl⟩
    | some input =>
      simp only [ha, Option.bind_some] at hnext ⊢
      obtain ⟨server, hserver, rfl⟩ := Option.map_eq_some_iff.mp hnext
      obtain ⟨c', hc', rfl⟩ := Option.map_eq_some_iff.mp hserver
      have hboard := d.board_logged
        { coordinator := c'
          threads := Function.update d.server.threads id
            ((d.server.threads id).advance d.coordinator input).2 }
        (Function.update d.links id ((d.links id).after (d.server.threads id) d.coordinator input))
        ((d.server.threads id).advance d.coordinator input).1
      simp only [coordinator, logged_server]
      exact ⟨hc', hboard⟩

/-! ### Runs -/

section Runs

variable {config : CoordinatorConfig} {environment : Coordinator.StartEnvironment}
  {disk : Option Text} {workers : ℕ → WorkerConfig} {ids : Set ℕ}

/-- The deployments that a run goes through, each with the event it met. -/
def runCalls (config : CoordinatorConfig) (environment : Coordinator.StartEnvironment)
    (disk : Option Text) (workers : ℕ → WorkerConfig) (events : List DeploymentEvent) :
    List (Option Deployment × DeploymentEvent) :=
  calls step (launch config environment disk workers) events

/-- The deployment that a run leads to, while the coordinator lives. -/
def runTo (config : CoordinatorConfig) (environment : Coordinator.StartEnvironment)
    (disk : Option Text) (workers : ℕ → WorkerConfig) (events : List DeploymentEvent) :
    Option Deployment :=
  run step (launch config environment disk workers) events

/-- The run cannot bring around the epoch it starts from. -/
def withinEpochs (config : CoordinatorConfig) (environment : Coordinator.StartEnvironment)
    (disk : Option Text) (events : List DeploymentEvent) : Prop :=
  ∀ c ∈ Coordinator.launch config environment disk, c.epoch.value.toNat + events.length < 2 ^ 64

theorem launch_eq_some (h : launch config environment disk workers = some d) :
    ∃ c, Coordinator.launch config environment disk = some c ∧
      d = { server := { coordinator := c }
            processes := fun id => { worker := { config := workers id } } } := by
  obtain ⟨server, hserver, rfl⟩ := Option.map_eq_some_iff.mp h
  obtain ⟨c, hc, rfl⟩ := Option.map_eq_some_iff.mp hserver
  exact ⟨c, hc, rfl⟩

/-- The epoch of a sound coordinator moves by one at most. -/
theorem performed_epoch {c c' : Coordinator} (h : Coordinator.Sound c) {o : Option Section}
    (hp : Server.performed c o = some c') (hmax : c.epoch.value.toNat < 2 ^ 64 - 1) :
    c'.epoch.value.toNat ≤ c.epoch.value.toNat + 1 := by
  cases o with
  | none =>
    obtain rfl := Option.some.inj hp
    exact Nat.le_succ _
  | some s =>
    have hs : c.perform s = some c' := hp
    have hne : c.epoch.value ≠ u64Max := fun heq => by
      rw [heq] at hmax
      exact absurd hmax (by decide)
    rcases Coordinator.perform_epoch h hs with ⟨-, he⟩ | ⟨-, he⟩
    · rw [he, Coordinator.next_toNat hne]
    · rw [he]
      exact Nat.le_succ _

/-- Along a run the coordinator stays sound, and its epoch moves with the events at most. -/
def Counted (start count : ℕ) (s : Option Deployment) : Prop :=
  ∀ d ∈ s, Coordinator.Sound d.coordinator ∧ d.coordinator.epoch.value.toNat ≤ start + count

theorem counted_step {start count : ℕ} (s : Option Deployment) (event : DeploymentEvent)
    (hn : count < 2 ^ 64 - 1 - start) (h : Counted start count s) :
    Counted start (count + 1) (step s event) := by
  rintro d' hd'
  obtain ⟨d, rfl, hs⟩ := Option.bind_eq_some_iff.mp hd'
  obtain ⟨hsound, hepoch⟩ := h d rfl
  obtain ⟨hp, -⟩ := perform_board hs
  refine ⟨?_, ?_⟩
  · cases ho : d.performs event with
    | none =>
      rw [ho] at hp
      rw [← Option.some.inj hp]
      exact hsound
    | some s =>
      rw [ho] at hp
      exact hsound.step (Coordinator.perform_tableStep hsound s hp)
  · have hnext := performed_epoch hsound hp (by omega)
    omega

theorem counted_launch : ∀ c ∈ Coordinator.launch config environment disk,
    Counted c.epoch.value.toNat 0 (launch config environment disk workers) := by
  rintro c hc d hd
  obtain ⟨c', hc', rfl⟩ := launch_eq_some hd
  obtain rfl := Option.some.inj (hc.symm.trans hc')
  exact ⟨Coordinator.sound_of_started (Coordinator.started_of_launch hc), le_refl _⟩

/-- A deployment of a run has a coordinator that came up. -/
theorem launched_of_call {events : List DeploymentEvent} {call : Option Deployment × DeploymentEvent}
    (hc : call ∈ runCalls config environment disk workers events) (hd : d ∈ call.1) :
    ∃ c, Coordinator.launch config environment disk = some c := by
  cases hlaunch : launch config environment disk workers with
  | none =>
    have hnone : call.1 = none :=
      calls_invariant (P := fun s => s = none) (fun s i hs => by rw [hs]; rfl) hlaunch hc
    rw [hnone] at hd
    cases hd
  | some start =>
    obtain ⟨c, hc, -⟩ := launch_eq_some hlaunch
    exact ⟨c, hc⟩

/-- No section of a run that is within the epochs brings the epoch around. -/
theorem runCalls_keepsEpoch {events : List DeploymentEvent}
    (h : withinEpochs config environment disk events) {call : Option Deployment × DeploymentEvent}
    (hc : call ∈ runCalls config environment disk workers events) :
    ∀ d ∈ call.1, ∀ s ∈ d.performs call.2, keepsEpoch d.coordinator s := by
  intro d hd
  obtain ⟨c, hl⟩ := launched_of_call hc hd
  have hshort := h c hl
  have hstep : ∀ n s i, n < 2 ^ 64 - 1 - c.epoch.value.toNat →
      Counted c.epoch.value.toNat n s → Counted c.epoch.value.toNat (n + 1) (step s i) :=
    fun n s i hn hs => counted_step s i hn hs
  obtain ⟨m, hm, hcounted⟩ := calls_invariant_counted hstep (counted_launch c hl) (by omega) hc
  rintro s - ⟨-, hmax⟩
  obtain ⟨-, hepoch⟩ := hcounted d hd
  rw [hmax] at hepoch
  have hlast : u64Max.toNat = 2 ^ 64 - 1 := rfl
  omega

/-- The workers that call in a run. -/
def callers (events : List DeploymentEvent) : Set ℕ :=
  {id | ∃ call sent, DeploymentEvent.call id call sent ∈ events}

/-- An event of a run: its section keeps the epoch and its call is one of those made. -/
def Regular (made : ℕ → Call → Prop) (s : Option Deployment) (event : DeploymentEvent) : Prop :=
  (∀ d ∈ s, ∀ x ∈ d.performs event, keepsEpoch d.coordinator x) ∧
    ∀ id call sent, event = .call id call sent → made id call

theorem hold_step {I : Board → Prop} {A : ℕ → Board → Process → Stage → Prop} {made : ℕ → Call → Prop}
    (r : Rules I A keepsEpoch made) (s : Option Deployment) (event : DeploymentEvent)
    (h : ∀ d ∈ s, Holds I A d) (hregular : Regular made s event) :
    ∀ d ∈ step s event, Holds I A d := by
  intro d' hd'
  obtain ⟨d, rfl, hs⟩ := Option.bind_eq_some_iff.mp hd'
  exact (h d rfl).perform r (hregular.1 d rfl) hregular.2 hs

/-- What obeys the rule holds along a run within the epochs. -/
theorem calls_hold {I : Board → Prop} {A : ℕ → Board → Process → Stage → Prop}
    {made : ℕ → Call → Prop} (r : Rules I A keepsEpoch made)
    (hl : ∀ d ∈ launch config environment disk workers, Holds I A d)
    {events : List DeploymentEvent} (h : withinEpochs config environment disk events)
    (hmade : ∀ id call sent, .call id call sent ∈ events → made id call)
    {call : Option Deployment × DeploymentEvent}
    (hc : call ∈ runCalls config environment disk workers events) :
    ∀ d ∈ call.1, Holds I A d :=
  calls_invariant_of_calls (P := fun s : Option Deployment => ∀ d ∈ s, Holds I A d)
    (fun s event hs hc => hold_step r s event hs hc) hl
    (fun _ hcall => ⟨runCalls_keepsEpoch h hcall, fun id called sent heq =>
      hmade id called sent (heq ▸ input_of_mem_calls step hcall)⟩) hc

theorem run_holds {I : Board → Prop} {A : ℕ → Board → Process → Stage → Prop} {made : ℕ → Call → Prop}
    (r : Rules I A keepsEpoch made)
    (hl : ∀ d ∈ launch config environment disk workers, Holds I A d)
    {events : List DeploymentEvent} (h : withinEpochs config environment disk events)
    (hmade : ∀ id call sent, .call id call sent ∈ events → made id call) :
    ∀ d ∈ runTo config environment disk workers events, Holds I A d :=
  run_invariant_of_calls (P := fun s : Option Deployment => ∀ d ∈ s, Holds I A d)
    (fun s event hs hc => hold_step r s event hs hc) hl
    (fun _ hcall => ⟨runCalls_keepsEpoch h hcall, fun id called sent heq =>
      hmade id called sent (heq ▸ input_of_mem_calls step hcall)⟩)

/-- Workers that have not called yet agree with the coordinator. -/
theorem coherent_launch : ∀ d ∈ launch config environment disk workers,
    Holds Board.Coherent (Process.Coherent workers ids) d := by
  rintro d hd
  obtain ⟨c, hc, rfl⟩ := launch_eq_some hd
  obtain ⟨hsound, htraced⟩ := (Coordinator.fenced_launch config environment disk).2 c hc
  obtain ⟨environment', disk', hstart⟩ := Coordinator.started_of_launch hc
  refine ⟨⟨hsound, htraced, ?_⟩, fun id => ⟨.idle, ⟨rfl, Or.inl rfl⟩, rfl, ?_, ?_, Or.inl rfl, ?_⟩⟩
  · intro record hm
    change record ∈ c.leases.entries at hm
    rw [(Coordinator.start_leases hstart).1] at hm
    cases hm
  · exact .resting _ rfl (Or.inl rfl) ⟨Or.inl rfl, le_refl _, Nat.zero_le _⟩
  · exact Nat.zero_le _
  · exact fun hid => ⟨rfl, rfl⟩

end Runs

/-! ### A sample run -/

/-- A call that nothing disturbs: its frame goes out, its thread serves it, its reply arrives. -/
def undisturbed (id : ℕ) (call : Call) (now : Timestamp) : List DeploymentEvent :=
  .call id call true :: List.replicate 7 (.session id { received := .ok {}, now }) ++
    [.settle id none]

/-- Incarnations of one worker, each for the same destination. -/
def sampleWorkers (id : ℕ) : WorkerConfig :=
  { worker := ⟨1⟩, boot := ⟨UInt64.ofNat (id + 1)⟩, destination := ⟨7⟩ }

/-- One incarnation takes the lease and publishes; another supersedes it, and both publish. -/
def superseding : List DeploymentEvent :=
  undisturbed 0 .connectAndHandshake ⟨1000⟩ ++ undisturbed 0 .acquireLease ⟨2000⟩ ++
    undisturbed 0 (.publish {}) ⟨3000⟩ ++
    undisturbed 1 .connectAndHandshake ⟨4000⟩ ++ undisturbed 1 .acquireLease ⟨5000⟩ ++
    undisturbed 0 (.publish {}) ⟨6000⟩ ++ undisturbed 1 (.publish {}) ⟨7000⟩

theorem superseding_callers : ∀ id ∈ callers superseding, id = 0 ∨ id = 1 := by
  rintro id ⟨call, sent, hm⟩
  simp [superseding, undisturbed] at hm
  omega

theorem superseding_distinct : distinctIncarnations sampleWorkers (callers superseding) := by
  intro i hi j hj heq
  have hboot := congrArg Prod.fst heq
  rcases superseding_callers i hi with rfl | rfl <;>
    rcases superseding_callers j hj with rfl | rfl <;>
    first | rfl | exact absurd hboot (by decide)

theorem superseding_calls : 0 ∈ callers superseding :=
  ⟨.connectAndHandshake, true, by simp [superseding, undisturbed]⟩

theorem superseding_within : withinEpochs {} {} none superseding := by
  unfold withinEpochs
  decide +kernel

/-- What the deployment behind a run of the sample workers meets. -/
theorem sample_meets (events : List DeploymentEvent) (P : Deployment → Bool)
    (h : (runTo {} {} none sampleWorkers events).any P = true) :
    ∃ d, runTo {} {} none sampleWorkers events = some d ∧ P d = true := by
  cases hruns : runTo {} {} none sampleWorkers events with
  | none =>
    rw [hruns] at h
    cases h
  | some d =>
    rw [hruns] at h
    exact ⟨d, rfl, h⟩

end Deployment

end IncastGovernor
