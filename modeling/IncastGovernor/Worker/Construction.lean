import IncastGovernor.Core.Minting
import IncastGovernor.Worker.Fence

/-! Workers that mint their own identities. The constructor mints what its configuration leaves
out: the boot of the readings of two clocks, the id of the name. Workers whose readings make seeds
apart are distinct incarnations, so the fence stands between them. -/

namespace IncastGovernor

structure ClockReadings where
  nanos : UInt64 := 0
  ticks : UInt64 := 0

def ClockReadings.seed (clocks : ClockReadings) : UInt64 := bootSeed clocks.nanos clocks.ticks

namespace GovernorWorker

variable {config : WorkerConfig} {clocks : ClockReadings}

def create (config : WorkerConfig) (clocks : ClockReadings) : GovernorWorker :=
  let config :=
    if config.boot.valid then config
    else { config with boot := mintBootIncarnation clocks.nanos clocks.ticks }
  let config :=
    if config.worker.valid then config
    else { config with worker := mintWorkerId config.name }
  { config }

/-- A worker is never constructed without its two identities. -/
theorem create_valid (config : WorkerConfig) (clocks : ClockReadings) :
    (create config clocks).config.boot.valid ∧ (create config clocks).config.worker.valid := by
  by_cases hboot : config.boot.valid <;> by_cases hworker : config.worker.valid <;>
    simp [create, hboot, hworker, mintBootIncarnation_valid, mintWorkerId_valid]

@[simp] theorem create_destination :
    (create config clocks).config.destination = config.destination := by
  by_cases hboot : config.boot.valid <;> by_cases hworker : config.worker.valid <;>
    simp [create, hboot, hworker]

/-- A boot that the configuration leaves out is minted. -/
theorem create_boot (h : ¬config.boot.valid) :
    (create config clocks).config.boot = mintBootIncarnation clocks.nanos clocks.ticks := by
  by_cases hworker : config.worker.valid <;> simp [create, h, hworker]

end GovernorWorker

namespace Deployment

/-- Workers as their constructor leaves them. -/
def created (configs : ℕ → WorkerConfig) (clocks : ℕ → ClockReadings) (id : ℕ) : WorkerConfig :=
  (GovernorWorker.create (configs id) (clocks id)).config

/-- The readings make seeds that the generator does not answer alike. -/
def seedsApart (clocks : ℕ → ClockReadings) (ids : Set ℕ) : Prop :=
  ids.Pairwise fun i j => (clocks i).seed ≠ (clocks j).seed ∧
    ¬((clocks i).seed ∈ foldedSeeds ∧ (clocks j).seed ∈ foldedSeeds)

variable {configs : ℕ → WorkerConfig} {clocks : ℕ → ClockReadings} {ids : Set ℕ}

theorem created_distinct (hunset : ∀ id ∈ ids, ¬(configs id).boot.valid)
    (hseeds : seedsApart clocks ids) : distinctIncarnations (created configs clocks) ids := by
  intro i hi j hj heq
  by_contra hne
  obtain ⟨hseed, hfolded⟩ := hseeds hi hj hne
  have hboot : (created configs clocks i).boot = (created configs clocks j).boot :=
    congrArg Prod.fst heq
  rw [created, created, GovernorWorker.create_boot (hunset i hi),
    GovernorWorker.create_boot (hunset j hj), mintBootIncarnation, mintBootIncarnation,
    BootIncarnation.mk.injEq, orOne_next_eq_iff] at hboot
  rcases hboot with hsame | hboth
  · exact hseed hsame
  · exact hfolded hboth

/-- Between workers that mint their boots the epochs fence, and at no moment do two of one
destination hold live leases, provided their clocks made seeds apart. -/
theorem run_created_fence (config : CoordinatorConfig) (environment : Coordinator.StartEnvironment)
    (disk : Option Text) (configs : ℕ → WorkerConfig) (clocks : ℕ → ClockReadings)
    (events : List DeploymentEvent)
    (hunset : ∀ id ∈ callers events, ¬(configs id).boot.valid)
    (hseeds : seedsApart clocks (callers events))
    (h : withinEpochs config environment disk events) :
    ∀ d ∈ runTo config environment disk (created configs clocks) events,
      epochsFence d.grants ∧ ∀ i j, (configs i).destination = (configs j).destination →
        (d.processes i).worker.holds d.coordinator → (d.processes j).worker.holds d.coordinator →
          i = j := by
  intro d hrun
  have hd := created_distinct hunset hseeds
  have hholds := run_holds (fenced_rules hd) fenced_launch h (fun _ call sent hm => ⟨call, sent, hm⟩)
  obtain ⟨⟨hboard, hfenced⟩, hprocesses⟩ := hholds d hrun
  refine ⟨hfenced.fence, fun i j hdestination hi hj => ?_⟩
  have hcoherent : Holds Board.Coherent (Process.Coherent (created configs clocks) (callers events))
      d := ⟨hboard, hprocesses⟩
  refine hcoherent.one_holder hd ?_ hi hj
  rw [created, created, GovernorWorker.create_destination, GovernorWorker.create_destination]
  exact hdestination

/-- Two boots of one worker program. -/
def sampleClocks (id : ℕ) : ClockReadings := if id = 0 then {} else { nanos := 1 }

/-- What the two boots mint. -/
def mintedWorkers (id : ℕ) : WorkerConfig :=
  { worker := ⟨0xa51a677d5b590177⟩, destination := ⟨7⟩
    boot := if id = 0 then ⟨0xe220a8397b1dcdaf⟩ else ⟨0x910a2dec89025cc1⟩ }

theorem created_minted :
    created (fun _ => { destination := ⟨7⟩ }) sampleClocks = mintedWorkers := by
  have hworker : mintWorkerId (ascii "worker") = ⟨0xa51a677d5b590177⟩ := by decide
  have hboot : mintBootIncarnation 0 0 = ⟨0xe220a8397b1dcdaf⟩ := by decide
  have hboot' : mintBootIncarnation 1 0 = ⟨0x910a2dec89025cc1⟩ := by decide
  funext id
  by_cases hid : id = 0
  · subst hid
    simp [created, GovernorWorker.create, sampleClocks, mintedWorkers, hworker, hboot,
      BootIncarnation.valid, StrongId.valid]
  · simp [created, GovernorWorker.create, sampleClocks, mintedWorkers, hid, hworker, hboot',
      BootIncarnation.valid, StrongId.valid]

theorem superseding_apart : seedsApart sampleClocks (callers superseding) := by
  intro i hi j hj hne
  rcases superseding_callers i hi with rfl | rfl <;>
    rcases superseding_callers j hj with rfl | rfl <;>
    first | exact absurd rfl hne | decide

theorem run_created_fence_superseding :
    ∃ d, runTo {} {} none (created (fun _ => { destination := ⟨7⟩ }) sampleClocks) superseding =
        some d ∧ (d.processes 1).worker.holds d.coordinator ∧
      ¬(d.processes 0).worker.holds d.coordinator ∧ epochsFence d.grants := by
  have hruns : (runTo {} {} none (created (fun _ => { destination := ⟨7⟩ }) sampleClocks)
      superseding).any (fun d => (d.processes 1).worker.holds d.coordinator) = true := by
    rw [created_minted]
    decide +kernel
  obtain ⟨d, hd, hholder⟩ := (Option.any_eq_true _ _).mp hruns
  have hholds := of_decide_eq_true hholder
  obtain ⟨hfence, hone⟩ := run_created_fence {} {} none (fun _ => { destination := ⟨7⟩ })
    sampleClocks superseding (fun _ _ => by decide) superseding_apart superseding_within d hd
  exact ⟨d, hd, hholds, fun hother => absurd (hone 0 1 rfl hother hholds) (by decide), hfence⟩

end Deployment

end IncastGovernor
