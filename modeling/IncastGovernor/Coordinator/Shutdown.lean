import IncastGovernor.Coordinator.Hosting
import IncastGovernor.Foundation.BoundedRun

/-! The end of a coordinator. Once it stops, its threads have a bounded number of steps left,
whatever its peers do, and when none of them can take one, `run` has returned and every thread it
started with it. -/

namespace IncastGovernor

open Foundation

open Coordinator (Section)

/-- A coordinator that comes up is not stopping. -/
theorem Coordinator.started_stopping {config : CoordinatorConfig} {c : Coordinator}
    (h : Started config c) : c.stopping = false := by
  obtain ⟨environment, disk, hs⟩ := h
  rcases start_ok hs with ⟨-, rfl⟩ | ⟨ledger, -, hr⟩
  · rfl
  · obtain ⟨persisted, -, hp⟩ := resume_ok hr
    have hsame := persistEpoch_stopping
      ({ { create config with boot := environment.boot } with
          epoch := ({ create config with boot := environment.boot } : Coordinator).resumeEpoch persisted
          ledger
          ledgerOpen := true } : Coordinator) environment.fault
    rw [hp] at hsame
    exact hsame

/-! ### The threads of the sessions -/

/-- The steps that a thread has left once the coordinator stops. -/
def Phase.left : Phase → ℕ
  | .connecting | .replying _ | .answering _ _ => 2
  | .looping | .answered _ _ => 1
  | .receiving => 5
  | .dispatching => 4
  | .denying _ | .countingDenied => 3
  | .ended => 0

theorem Coordinator.phaseAfter_left (c : Coordinator) (s : Section) : (c.phaseAfter s).left ≤ 3 := by
  cases s with
  | leaseRequest request now order fault =>
    unfold phaseAfter
    simp only
    split <;> simp [Phase.left]
  | leaseRenew renew now =>
    unfold phaseAfter
    simp only
    split <;> simp [Phase.left]
  | _ => simp [phaseAfter, Phase.left]

/-- Every step of a thread takes one of them. -/
theorem Thread.advance_left {thread : Thread} {c : Coordinator} (hc : c.stopping = true)
    (h : thread.phase.over = false) (input : Input) :
    (thread.advance c input).2.phase.left < thread.phase.left := by
  unfold advance
  cases hp : thread.phase with
  | looping => simp [Phase.left, hc]
  | receiving => cases input.received <;> simp [Phase.left]
  | dispatching =>
    simp only
    cases thread.frame.section input with
    | some s => exact Nat.lt_succ_of_le (c.phaseAfter_left s)
    | none => by_cases hserved : thread.frame.served <;> simp [Phase.left, hserved]
  | replying counted => cases input.sent <;> simp [Phase.left]
  | ended =>
    rw [hp] at h
    cases h
  | _ => simp [Phase.left]

theorem Thread.advance_over {thread : Thread} (h : thread.phase.over = true) (c : Coordinator)
    (input : Input) : (thread.advance c input).2 = thread := by
  unfold advance
  cases hp : thread.phase with
  | ended => rfl
  | _ =>
    rw [hp] at h
    cases h

namespace Server

variable {server server' : Server}

/-- A server that stops stays so. -/
theorem Sound.stopping (h : server.Sound) {event : ServerEvent} (hs : server.serve event = some server')
    (hstop : server.coordinator.stopping = true) : server'.coordinator.stopping = true := by
  have hperform : ∀ {s : Section} {c}, server.coordinator.perform s = some c → c.stopping = true := by
    intro s c hp
    by_cases hs : s = .stop
    · subst hs
      obtain rfl := Option.some.inj hp
      rfl
    · exact (Coordinator.perform_stopping h.steady.sound hp hs).trans hstop
  cases event with
  | session id input =>
    obtain ⟨c, hp, rfl⟩ := Option.map_eq_some_iff.mp hs
    cases hsection : ((server.threads id).advance server.coordinator input).1 with
    | none =>
      rw [hsection] at hp
      obtain rfl := Option.some.inj hp
      exact hstop
    | some s =>
      rw [hsection] at hp
      exact hperform hp
  | advanceEpoch fault =>
    unfold serve at hs
    obtain ⟨c, hp, rfl⟩ := Option.map_eq_some_iff.mp hs
    exact hperform hp
  | stop =>
    unfold serve at hs
    obtain ⟨c, hp, rfl⟩ := Option.map_eq_some_iff.mp hs
    exact hperform hp

/-- A step of a thread leaves the other threads where they are. -/
theorem serve_session {id : ℕ} {input : Input} (hs : server.serve (.session id input) = some server') :
    server'.threads = Function.update server.threads id
      ((server.threads id).advance server.coordinator input).2 := by
  obtain ⟨c, -, rfl⟩ := Option.map_eq_some_iff.mp hs
  rfl

end Server

/-! ### What the threads keep -/

namespace Service

/-- What holds where `run` stands: every accepted session has its thread, a wake-up is waiting for
an `accept` that is under way, and a session whose thread is still to be joined was shut down. -/
def Stands (s : Service) : Hosting → Prop
  | .accepting => s.workers = List.range s.accepted ∧ (s.woken = true → 0 < s.backlog)
  | .spawning id => s.accepted = id + 1 ∧ s.workers = List.range id ∧ s.departed id = false
  | .joining left =>
    s.workers = List.range s.accepted ∧ (∀ id ∈ left, id < s.accepted) ∧
      ∀ id < s.accepted, s.departed id = false → s.shut id = true ∧ id ∈ left
  | .returned (.ok _) => s.workers = [] ∧ ∀ id < s.accepted, s.departed id = true
  | _ => s.workers = List.range s.accepted

/-- The registered sessions are those accepted whose threads have not returned. -/
structure Kept (s : Service) : Prop where
  server : s.server.Sound
  stops : s.stopper = .idle ↔ s.coordinator.stopping = false
  woken : s.woken = true → s.coordinator.stopping = true
  nodup : s.sessions.Nodup
  registered : ∀ id, id ∈ s.sessions ↔ id < s.accepted ∧ s.departed id = false
  ahead : ∀ id, s.accepted ≤ id → s.departed id = false
  stands : s.Stands s.hosting

variable {s s' : Service}

/-- What holds where `run` stands is kept while it stands there. -/
theorem Stands.mono {t : Service} {hosting : Hosting} (h : s.Stands hosting)
    (hworkers : t.workers = s.workers) (haccepted : t.accepted = s.accepted)
    (hdeparted : ∀ id, s.departed id = true → t.departed id = true)
    (hstarting : ∀ id, id ∉ s.workers → t.departed id = s.departed id)
    (hshut : ∀ id, s.shut id = true → t.shut id = true)
    (hwoken : hosting = .accepting → t.woken = true →
      0 < t.backlog ∨ s.woken = true ∧ s.backlog ≤ t.backlog) : t.Stands hosting := by
  unfold Stands at h ⊢
  rw [hworkers, haccepted]
  cases hosting with
  | accepting =>
    refine ⟨h.1, fun hw => ?_⟩
    rcases hwoken rfl hw with hpos | ⟨hbefore, hle⟩
    · exact hpos
    · exact Nat.lt_of_lt_of_le (h.2 hbefore) hle
  | spawning id =>
    refine ⟨h.1, h.2.1, ?_⟩
    rw [hstarting id (by rw [h.2.1, List.mem_range]; omega)]
    exact h.2.2
  | joining left =>
    refine ⟨h.1, h.2.1, fun id hid halive => ?_⟩
    have hbefore : s.departed id = false := by
      cases hd : s.departed id with
      | false => rfl
      | true =>
        rw [hdeparted id hd] at halive
        cases halive
    obtain ⟨hs, hleft⟩ := h.2.2 id hid hbefore
    exact ⟨hshut id hs, hleft⟩
  | returned status =>
    cases status with
    | ok u => exact ⟨h.1, fun id hid => hdeparted id (h.2 id hid)⟩
    | error error => exact h
  | _ => exact h

theorem Kept.connect (h : s.Kept) :
    Kept { s with backlog := if s.hosting.listens then s.backlog + 1 else s.backlog } where
  server := h.server
  stops := h.stops
  woken := h.woken
  nodup := h.nodup
  registered := h.registered
  ahead := h.ahead
  stands := by
    refine h.stands.mono rfl rfl (fun _ => id) (fun _ _ => rfl) (fun _ => id) fun haccepting hw => ?_
    refine Or.inr ⟨hw, ?_⟩
    simp only
    split_ifs <;> omega

/-- A step of the server, a call of `stop` among them. -/
theorem Kept.served (h : s.Kept) {server : Server} {event : ServerEvent}
    (hs : s.server.serve event = some server) (caller : Option ℕ) : (s.served server caller).Kept := by
  unfold Service.served
  split_ifs with hcalled
  · exact
      { server := h.server.step hs
        stops := by simp [coordinator, hcalled.2]
        woken := fun _ => hcalled.2
        nodup := h.nodup
        registered := h.registered
        ahead := h.ahead
        stands := h.stands.mono rfl rfl (fun _ => id) (fun _ _ => rfl) (fun _ => id)
          fun _ hw => Or.inr ⟨hw, le_rfl⟩ }
  · have hsame : server.coordinator.stopping = s.coordinator.stopping := by
      cases hbefore : s.coordinator.stopping with
      | true => exact h.server.stopping hs hbefore
      | false =>
        cases hafter : server.coordinator.stopping with
        | false => rfl
        | true => exact absurd ⟨hbefore, hafter⟩ hcalled
    exact
      { server := h.server.step hs
        stops := by
          rw [show ({ s with server } : Service).coordinator.stopping = s.coordinator.stopping
            from hsame]
          exact h.stops
        woken := fun hw => hsame.trans (h.woken hw)
        nodup := h.nodup
        registered := h.registered
        ahead := h.ahead
        stands := h.stands.mono rfl rfl (fun _ => id) (fun _ _ => rfl) (fun _ => id)
          fun _ hw => Or.inr ⟨hw, le_rfl⟩ }

/-- Only the threads of accepted sessions run. -/
theorem Kept.lt_accepted (h : s.Kept) {id : ℕ} (hid : id ∈ s.workers) : id < s.accepted := by
  have hstands := h.stands
  have hrange : s.workers = List.range s.accepted → id < s.accepted := fun heq => by
    rwa [heq, List.mem_range] at hid
  cases hhosting : s.hosting with
  | spawning starting =>
    rw [hhosting] at hstands
    rw [hstands.2.1, List.mem_range] at hid
    rw [hstands.1]
    omega
  | returned status =>
    rw [hhosting] at hstands
    cases status with
    | ok u =>
      rw [hstands.1] at hid
      cases hid
    | error error => exact hrange hstands
  | accepting | joining left =>
    rw [hhosting] at hstands
    exact hrange hstands.1
  | _ =>
    rw [hhosting] at hstands
    exact hrange hstands

/-- `run` moves on where it stands, and the connections it keeps do not change. -/
theorem Kept.moved (h : s.Kept) {hosting : Hosting} {backlog : ℕ} {shut : ℕ → Bool}
    (hnext : ({ s with hosting, backlog, shut } : Service).Stands hosting) :
    ({ s with hosting, backlog, shut } : Service).Kept where
  server := h.server
  stops := h.stops
  woken := h.woken
  nodup := h.nodup
  registered := h.registered
  ahead := h.ahead
  stands := hnext

/-- It goes on to accept only if nothing has stopped it, hence nothing has woken it. -/
theorem Kept.checks (h : s.Kept) (hstands : s.Stands .checking) :
    ({ s with hosting := if s.coordinator.stopping then .closing else .accepting } : Service).Kept := by
  cases hstop : s.coordinator.stopping with
  | true => exact h.moved hstands
  | false =>
    refine h.moved ⟨hstands, fun hw => ?_⟩
    have hstopped := h.woken hw
    rw [hstop] at hstopped
    cases hstopped

theorem Kept.accepts (h : s.Kept) (hstands : s.Stands .accepting) (error : Error) :
    ({ s with
        hosting := if s.coordinator.stopping then .closing
          else .returned (.error ⟨error.code, error.detail⟩) } : Service).Kept := by
  cases s.coordinator.stopping with
  | true => exact h.moved hstands.1
  | false => exact h.moved hstands.1

/-- A connection is registered under the next number. -/
theorem Kept.registers (h : s.Kept) (hstands : s.Stands .registering) :
    ({ s with
        hosting := .spawning s.accepted
        accepted := s.accepted + 1
        sessions := s.sessions ++ [s.accepted] } : Service).Kept where
  server := h.server
  stops := h.stops
  woken := h.woken
  nodup := by
    refine List.nodup_append.mpr ⟨h.nodup, List.nodup_singleton _, fun a ha b hb => ?_⟩
    rw [List.mem_singleton.mp hb]
    exact Nat.ne_of_lt ((h.registered a).mp ha).1
  registered := by
    intro id
    have hahead := h.ahead s.accepted le_rfl
    rw [List.mem_append, h.registered, List.mem_singleton]
    constructor
    · rintro (⟨hid, halive⟩ | rfl)
      · exact ⟨Nat.lt_succ_of_lt hid, halive⟩
      · exact ⟨Nat.lt_succ_self _, hahead⟩
    · rintro ⟨hid, halive⟩
      rcases Nat.lt_succ_iff_lt_or_eq.mp hid with hlt | rfl
      · exact Or.inl ⟨hlt, halive⟩
      · exact Or.inr rfl
  ahead := fun id hid => h.ahead id (Nat.le_of_succ_le hid)
  stands := ⟨rfl, hstands, h.ahead _ le_rfl⟩

theorem Kept.spawns (h : s.Kept) {id : ℕ} (hstands : s.Stands (.spawning id)) :
    ({ s with hosting := .checking, workers := s.workers ++ [id] } : Service).Kept where
  server := h.server
  stops := h.stops
  woken := h.woken
  nodup := h.nodup
  registered := h.registered
  ahead := h.ahead
  stands := by
    show s.workers ++ [id] = List.range s.accepted
    rw [hstands.2.1, hstands.1, List.range_succ]

/-- Every session that is registered is shut before `run` joins the first thread. -/
theorem Kept.closes (h : s.Kept) (hstands : s.Stands .closing) :
    ({ s with
        hosting := .joining s.workers
        backlog := 0
        shut := fun id => s.shut id || decide (id ∈ s.sessions) } : Service).Kept := by
  change s.workers = List.range s.accepted at hstands
  refine h.moved ⟨hstands, fun id hid => ?_, fun id hid halive => ⟨?_, ?_⟩⟩
  · rwa [hstands, List.mem_range] at hid
  · simp [(h.registered id).mpr ⟨hid, halive⟩]
  · rw [hstands]
    exact List.mem_range.mpr hid

/-- With every thread joined no session is registered. -/
theorem Kept.returns (h : s.Kept) (hstands : s.Stands (.joining [])) :
    ({ s with hosting := .returned (.ok ()), sessions := [], workers := [] } : Service).Kept := by
  obtain ⟨-, -, hleft⟩ := hstands
  have hgone : ∀ id < s.accepted, s.departed id = true := by
    intro id hid
    cases hd : s.departed id with
    | true => rfl
    | false => exact absurd (hleft id hid hd).2 List.not_mem_nil
  exact
    { server := h.server
      stops := h.stops
      woken := h.woken
      nodup := List.nodup_nil
      registered := by
        intro id
        refine ⟨fun hm => absurd hm List.not_mem_nil, fun ⟨hid, halive⟩ => ?_⟩
        change s.departed id = false at halive
        rw [hgone id hid] at halive
        cases halive
      ahead := h.ahead
      stands := ⟨rfl, hgone⟩ }

theorem Kept.joins (h : s.Kept) {id : ℕ} {left : List ℕ} (hstands : s.Stands (.joining (id :: left)))
    (hdeparted : s.departed id = true) : ({ s with hosting := .joining left } : Service).Kept := by
  obtain ⟨hworkers, hbelow, hleft⟩ := hstands
  refine h.moved ⟨hworkers, fun other hm => hbelow other (List.mem_cons_of_mem id hm), ?_⟩
  intro other hother halive
  obtain ⟨hshut, hm⟩ := hleft other hother halive
  refine ⟨hshut, (List.mem_cons.mp hm).resolve_left ?_⟩
  rintro rfl
  change s.departed other = false at halive
  rw [hdeparted] at halive
  cases halive

/-- A step of `run`. -/
theorem Kept.host (h : s.Kept) (failed : Option Error) : (s.host failed).Kept := by
  have hstands := h.stands
  unfold Service.host
  cases hhosting : s.hosting with
  | checking => exact h.checks (hhosting ▸ hstands)
  | accepting =>
    rw [hhosting] at hstands
    cases failed with
    | some error => exact h.accepts hstands error
    | none =>
      simp only
      split_ifs with hbacklog
      · exact h
      · exact h.moved hstands.1
  | registering => exact h.registers (hhosting ▸ hstands)
  | spawning id => exact h.spawns (hhosting ▸ hstands)
  | closing => exact h.closes (hhosting ▸ hstands)
  | joining left =>
    rw [hhosting] at hstands
    cases left with
    | nil => exact h.returns hstands
    | cons id left =>
      simp only
      split_ifs with hdeparted
      · exact h.joins hstands hdeparted
      · exact h
  | returned status => exact h

theorem Kept.leave (h : s.Kept) (id : ℕ) : (s.leave id).Kept := by
  unfold Service.leave
  split_ifs with hending
  · obtain ⟨⟨hworker, halive⟩, -, -⟩ := hending
    have hgrows : ∀ other, s.departed other = true →
        Function.update s.departed id true other = true := by
      intro other hd
      by_cases heq : other = id
      · rw [heq, Function.update_self]
      · rwa [Function.update_of_ne heq]
    exact
      { server := h.server
        stops := h.stops
        woken := h.woken
        nodup := h.nodup.erase id
        registered := by
          intro other
          rw [h.nodup.mem_erase_iff, h.registered]
          by_cases heq : other = id
          · simp [heq]
          · simp [heq]
        ahead := by
          intro other hother
          have hbelow := h.lt_accepted hworker
          change s.accepted ≤ other at hother
          show Function.update s.departed id true other = false
          rw [Function.update_of_ne (by omega)]
          exact h.ahead other hother
        stands := by
          refine h.stands.mono rfl rfl hgrows (fun other hother => ?_) (fun _ hs => hs)
            fun _ hw => Or.inr ⟨hw, le_rfl⟩
          refine Function.update_of_ne (fun heq => hother ?_) ..
          rwa [heq] }
  · exact h

/-- Behind the flag `stop` wakes and shuts down. -/
theorem Kept.onward (h : s.Kept) (hbusy : s.stopper ≠ .idle) {stopper : Stopper}
    (hnext : stopper ≠ .idle) {woken : Bool} {backlog : ℕ} {shut : ℕ → Bool}
    (hstands : ({ s with stopper, woken, backlog, shut } : Service).Stands s.hosting) :
    ({ s with stopper, woken, backlog, shut } : Service).Kept := by
  have hstop : s.coordinator.stopping = true := by simpa using mt h.stops.mpr hbusy
  exact
    { server := h.server
      stops := by
        show stopper = .idle ↔ s.coordinator.stopping = false
        simp [hnext, hstop]
      woken := fun _ => hstop
      nodup := h.nodup
      registered := h.registered
      ahead := h.ahead
      stands := hstands }

/-- A step of `stop`. -/
theorem Kept.stopping (h : s.Kept) (reached : Bool) : (s.stopping reached).Kept := by
  unfold Service.stopping
  cases hstopper : s.stopper with
  | waking =>
    refine h.onward (by simp [hstopper]) (by simp) ?_
    refine h.stands.mono rfl rfl (fun _ hd => hd) (fun _ _ => rfl) (fun _ hs => hs) ?_
    intro haccepting hreached
    left
    change reached = true at hreached
    simp [hreached, haccepting, Hosting.listens]
  | listing =>
    refine h.onward (by simp [hstopper]) (by simp) ?_
    exact h.stands.mono rfl rfl (fun _ hd => hd) (fun _ _ => rfl) (fun _ hs => hs)
      fun _ hw => Or.inr ⟨hw, le_rfl⟩
  | unblocking snapshot =>
    cases snapshot with
    | nil =>
      refine h.onward (by simp [hstopper]) (by simp) ?_
      exact h.stands.mono rfl rfl (fun _ hd => hd) (fun _ _ => rfl) (fun _ hs => hs)
        fun _ hw => Or.inr ⟨hw, le_rfl⟩
    | cons id snapshot =>
      refine h.onward (by simp [hstopper]) (by simp) ?_
      refine h.stands.mono rfl rfl (fun _ hd => hd) (fun _ _ => rfl) (fun other hs => ?_)
        fun _ hw => Or.inr ⟨hw, le_rfl⟩
      by_cases heq : other = id
      · rw [heq]
        exact Function.update_self ..
      · exact (Function.update_of_ne heq ..).trans hs
  | _ => exact h

theorem Kept.step (h : s.Kept) {event : ServiceEvent} (hs : s.perform event = some s') :
    s'.Kept := by
  cases event with
  | connect =>
    obtain rfl := Option.some.inj hs
    exact h.connect
  | advanceEpoch fault =>
    unfold perform at hs
    obtain ⟨server, hserve, rfl⟩ := Option.map_eq_some_iff.mp hs
    exact h.served hserve none
  | stop =>
    unfold perform at hs
    obtain ⟨server, hserve, rfl⟩ := Option.map_eq_some_iff.mp hs
    exact h.served hserve none
  | host failed =>
    obtain rfl := Option.some.inj hs
    exact h.host failed
  | session id input =>
    change s.session id input = some s' at hs
    unfold session at hs
    split_ifs at hs with hruns
    · obtain ⟨server, hserve, rfl⟩ := Option.map_eq_some_iff.mp hs
      exact h.served hserve (some id)
    · obtain rfl := Option.some.inj hs
      exact h
  | leave id =>
    obtain rfl := Option.some.inj hs
    exact h.leave id
  | stopping reached =>
    obtain rfl := Option.some.inj hs
    exact h.stopping reached

theorem kept_launch {config : CoordinatorConfig} {environment : Coordinator.StartEnvironment}
    {disk : Option Text} : ∀ s ∈ launch config environment disk, s.Kept := by
  intro s hs
  obtain ⟨server, hserver, rfl⟩ := Option.map_eq_some_iff.mp hs
  obtain ⟨c, hlaunch, rfl⟩ := Option.map_eq_some_iff.mp hserver
  exact
    { server := Server.sound_of_bringUp hserver
      stops := by
        have hrunning : c.stopping = false := 
          Coordinator.started_stopping (Coordinator.started_of_launch hlaunch)
        simp [coordinator, hrunning]
      woken := nofun
      nodup := List.nodup_nil
      registered := by simp
      ahead := fun _ _ => rfl
      stands := rfl }

theorem kept_step (s : Option Service) (event : ServiceEvent) (h : ∀ t ∈ s, t.Kept) :
    ∀ t ∈ step s event, t.Kept := by
  intro t ht
  obtain ⟨before, hbefore, hs⟩ := Option.bind_eq_some_iff.mp ht
  exact (h before hbefore).step hs

/-- Every service a run leads to. -/
theorem run_kept (config : CoordinatorConfig) (environment : Coordinator.StartEnvironment)
    (disk : Option Text) (events : List ServiceEvent) :
    ∀ s ∈ runTo config environment disk events, s.Kept :=
  run_invariant (P := fun s : Option Service => ∀ t ∈ s, t.Kept) kept_step kept_launch events

/-! ### The steps left -/

/-- The steps that `run` has left, with as many threads in its list, and those of a session that it
may still start. -/
def hostLeft (workers : ℕ) : Hosting → ℕ
  | .accepting => workers + 14
  | .registering => workers + 13
  | .spawning _ => workers + 11
  | .checking => workers + 3
  | .closing => workers + 2
  | .joining left => left.length + 1
  | .returned _ => 0

/-- The steps that `stop` has left, with as many channels in the list. -/
def stopLeft (sessions : ℕ) : Stopper → ℕ
  | .idle | .over => 0
  | .waking => sessions + 3
  | .listing => sessions + 2
  | .unblocking snapshot => snapshot.length + 1

theorem stopLeft_mono {m n : ℕ} (h : m ≤ n) (stopper : Stopper) :
    stopLeft m stopper ≤ stopLeft n stopper := by
  cases stopper <;> simp [stopLeft, h]

theorem stopLeft_succ (n : ℕ) (stopper : Stopper) : stopLeft (n + 1) stopper ≤ stopLeft n stopper + 1 := by
  cases stopper <;> simp [stopLeft]

/-- The steps that the thread of a session has left; the last one takes its channel from the
list. -/
def threadLeft (s : Service) (id : ℕ) : ℕ :=
  if s.departed id then 0 else (s.server.threads id).phase.left + 1

/-- The steps that the coordinator's threads have left once it stops. -/
def left (s : Service) : ℕ :=
  hostLeft s.workers.length s.hosting + stopLeft s.sessions.length s.stopper +
    (s.workers.map s.threadLeft).sum

theorem threadLeft_le (s : Service) (id : ℕ) : s.threadLeft id ≤ 6 := by
  unfold threadLeft
  split_ifs
  · exact Nat.zero_le _
  · cases (s.server.threads id).phase <;> simp [Phase.left]

theorem host_left (hstop : s.coordinator.stopping = true) (failed : Option Error) :
    (s.host failed).left + (s.takes (.host failed)).toNat ≤ s.left := by
  have hthreads : ∀ (hosting : Hosting) (backlog accepted : ℕ) (sessions workers : List ℕ)
      (shut : ℕ → Bool),
      ({ s with hosting, backlog, accepted, sessions, workers, shut } : Service).threadLeft =
        s.threadLeft := fun _ _ _ _ _ _ => rfl
  unfold Service.host left takes
  cases hhosting : s.hosting with
  | checking =>
    simp only [hstop, hostLeft, hthreads, if_true, Bool.toNat_true]
    omega
  | accepting =>
    cases failed with
    | some error =>
      simp only [hstop, hostLeft, hthreads, if_true, Option.isSome_some, Bool.true_or,
        Bool.toNat_true]
      omega
    | none =>
      by_cases hbacklog : s.backlog = 0
      · simp [hbacklog, hhosting]
      · have hpos : 0 < s.backlog := Nat.pos_of_ne_zero hbacklog
        simp only [hbacklog, hpos, hostLeft, hthreads, if_false, Option.isSome_none, decide_true,
          Bool.or_true, Bool.toNat_true]
        omega
  | registering =>
    have hsucc := stopLeft_succ s.sessions.length s.stopper
    simp only [hostLeft, hthreads, List.length_append, List.length_singleton, Bool.toNat_true]
    omega
  | spawning id =>
    have hle := s.threadLeft_le id
    simp only [hostLeft, hthreads, List.length_append, List.length_singleton, List.map_append,
      List.map_singleton, List.sum_append, List.sum_singleton, Bool.toNat_true]
    omega
  | closing =>
    simp only [hostLeft, hthreads, Bool.toNat_true]
    omega
  | joining left =>
    cases left with
    | nil =>
      have hmono := stopLeft_mono (Nat.zero_le s.sessions.length) s.stopper
      simp only [hostLeft, List.length_nil, List.map_nil, List.sum_nil, Bool.toNat_true]
      omega
    | cons id left =>
      cases hdeparted : s.departed id with
      | false => simp [hdeparted, hhosting]
      | true =>
        simp only [hdeparted, hostLeft, hthreads, if_true, List.length_cons, Bool.toNat_true]
        omega
  | returned status => simp [hhosting]

theorem stopping_left (reached : Bool) :
    (s.stopping reached).left + (s.takes (.stopping reached)).toNat ≤ s.left := by
  have hthreads : ∀ (stopper : Stopper) (woken : Bool) (backlog : ℕ) (shut : ℕ → Bool),
      ({ s with stopper, woken, backlog, shut } : Service).threadLeft = s.threadLeft :=
    fun _ _ _ _ => rfl
  unfold Service.stopping left takes
  cases hstopper : s.stopper with
  | unblocking snapshot =>
    cases snapshot <;>
      simp only [stopLeft, hthreads, ne_eq, reduceCtorEq, not_false_eq_true, and_self, decide_true,
        Bool.toNat_true, List.length_nil, List.length_cons] <;>
      omega
  | waking | listing =>
    simp only [stopLeft, hthreads, ne_eq, reduceCtorEq, not_false_eq_true, and_self, decide_true,
      Bool.toNat_true]
    omega
  | _ => simp [hstopper]

/-- A step that takes from what the thread of one session has left takes it from all that is
left. -/
theorem sum_left_lt {workers : List ℕ} {before after : ℕ → ℕ} {id : ℕ} (hid : id ∈ workers)
    (hlt : after id < before id) (hsame : ∀ other, other ≠ id → after other = before other) :
    (workers.map after).sum < (workers.map before).sum := by
  refine List.sum_lt_sum after before (fun other _ => ?_) ⟨id, hid, hlt⟩
  by_cases heq : other = id
  · rw [heq]
    exact hlt.le
  · exact (hsame other heq).le

theorem leave_left (s : Service) (id : ℕ) :
    (s.leave id).left + (s.takes (.leave id)).toNat ≤ s.left := by
  unfold Service.leave left takes
  by_cases hending : s.ending id
  · simp only [hending, if_true, decide_true, Bool.toNat_true]
    obtain ⟨⟨hworker, halive⟩, -, -⟩ := hending
    have hsum := @sum_left_lt s.workers s.threadLeft
      ({ s with sessions := s.sessions.erase id, departed := Function.update s.departed id true } :
        Service).threadLeft id hworker (by simp [threadLeft, halive])
      (fun other hother => by simp [threadLeft, Function.update_of_ne hother])
    have hmono := stopLeft_mono (List.length_erase_le (a := id) (l := s.sessions)) s.stopper
    omega
  · simp [hending]

theorem session_left (hstop : s.coordinator.stopping = true) {id : ℕ} {input : Input}
    (hs : s.session id input = some s') :
    s'.left + (s.takes (.session id input)).toNat ≤ s.left := by
  unfold session at hs
  by_cases hruns : s.runs id
  · rw [if_pos hruns] at hs
    obtain ⟨server, hserve, rfl⟩ := Option.map_eq_some_iff.mp hs
    have hserved : s.served server (some id) = { s with server } := by
      simp [Service.served, hstop]
    rw [hserved]
    have hthreads := Server.serve_session hserve
    have hother : ∀ other, other ≠ id →
        ({ s with server } : Service).threadLeft other = s.threadLeft other := fun other hne => by
      simp [threadLeft, hthreads, Function.update_of_ne hne]
    unfold left takes
    cases hover : (s.server.threads id).phase.over with
    | false =>
      have hlt : ({ s with server } : Service).threadLeft id < s.threadLeft id := by
        simp [threadLeft, hthreads, hruns.2]
        exact Thread.advance_left hstop hover input
      have hsum := sum_left_lt hruns.1 hlt hother
      simp [hruns, hover]
      omega
    | true =>
      have hsame : ({ s with server } : Service).threadLeft = s.threadLeft := by
        funext other
        by_cases heq : other = id
        · rw [heq]
          simp [threadLeft, hthreads, Thread.advance_over hover]
        · exact hother other heq
      simp [hruns, hover, hsame]
  · rw [if_neg hruns] at hs
    obtain rfl := Option.some.inj hs
    simp [takes, hruns]

/-- What reaches the coordinator from outside takes no step of its threads and adds none. -/
theorem served_left (server : Server) (hstop : s.coordinator.stopping = true)
    (hthreads : server.threads = s.server.threads) (caller : Option ℕ) :
    (s.served server caller).left = s.left := by
  have hserved : s.served server caller = { s with server } := by
    simp [Service.served, hstop]
  rw [hserved]
  unfold left threadLeft
  rw [show ({ s with server } : Service).server.threads = s.server.threads from hthreads]

/-- An event leaves the threads no more steps, and a step of theirs leaves them one less. -/
theorem perform_left (hstop : s.coordinator.stopping = true) {event : ServiceEvent}
    (hs : s.perform event = some s') : s'.left + (s.takes event).toNat ≤ s.left := by
  cases event with
  | connect =>
    obtain rfl := Option.some.inj hs
    exact le_rfl
  | advanceEpoch fault =>
    unfold perform Server.serve at hs
    obtain ⟨server, hserve, rfl⟩ := Option.map_eq_some_iff.mp hs
    obtain ⟨c, -, rfl⟩ := Option.map_eq_some_iff.mp hserve
    exact (served_left { s.server with coordinator := c } hstop rfl none).le
  | stop =>
    unfold perform Server.serve at hs
    obtain ⟨server, hserve, rfl⟩ := Option.map_eq_some_iff.mp hs
    obtain ⟨c, -, rfl⟩ := Option.map_eq_some_iff.mp hserve
    exact (served_left { s.server with coordinator := c } hstop rfl none).le
  | host failed =>
    obtain rfl := Option.some.inj hs
    exact host_left hstop failed
  | session id input => exact session_left hstop hs
  | leave id =>
    obtain rfl := Option.some.inj hs
    exact leave_left s id
  | stopping reached =>
    obtain rfl := Option.some.inj hs
    exact stopping_left reached

/-- A process dies in the step of a session, which that session had left. -/
theorem perform_died {event : ServiceEvent} (hs : s.perform event = none) :
    (s.takes event).toNat ≤ s.left := by
  cases event with
  | session id input =>
    cases htakes : s.takes (.session id input) with
    | false => exact Nat.zero_le _
    | true =>
      obtain ⟨hworker, halive⟩ : s.runs id := by
        unfold takes at htakes
        exact of_decide_eq_true (Bool.and_eq_true_iff.mp htakes).1
      have hmem : s.threadLeft id ∈ s.workers.map s.threadLeft := List.mem_map_of_mem hworker
      have hsum := List.single_le_sum (by simp) _ hmem
      have hpos : 1 ≤ s.threadLeft id := by simp [threadLeft, halive]
      rw [Bool.toNat_true]
      unfold left
      omega
  | advanceEpoch fault | stop => exact Nat.zero_le _
  | _ => cases hs

theorem Kept.stays (h : s.Kept) (hstop : s.coordinator.stopping = true) {event : ServiceEvent}
    (hs : s.perform event = some s') : s'.coordinator.stopping = true := by
  unfold coordinator
  rcases perform_server hs with hsame | ⟨served, hserve⟩
  · rw [hsame]
    exact hstop
  · exact h.server.stopping hserve hstop

/-- `run` has returned, and every thread it started before it. -/
structure Finished (s : Service) : Prop where
  hosting : s.hosting = .returned (.ok ())
  workers : s.workers = []
  sessions : s.sessions = []
  departed : ∀ id < s.accepted, s.departed id = true

/-- A coordinator that stops and whose threads all wait has nothing to wait for, unless the accept
loop was not woken or had failed before. -/
theorem Kept.finished (h : s.Kept) (hstop : s.coordinator.stopping = true)
    (hstill : ∀ event, s.moves event = false) :
    s.Finished ∨ (s.hosting = .accepting ∧ s.woken = false ∧ s.backlog = 0) ∨
      ∃ error, s.hosting = .returned (.error error) := by
  have hover : s.stopper = .over := by
    have hbusy : s.stopper ≠ .idle := fun hidle => by
      rw [h.stops.mp hidle] at hstop
      cases hstop
    by_contra hnot
    have hmoves := hstill (.stopping true)
    simp [moves, takes, hbusy, hnot] at hmoves
  have hmoves := hstill (.host none)
  have hstands := h.stands
  unfold moves takes at hmoves
  cases hhosting : s.hosting with
  | accepting =>
    rw [hhosting] at hmoves hstands
    have hbacklog : s.backlog = 0 := by simpa using hmoves
    refine Or.inr (Or.inl ⟨rfl, ?_, hbacklog⟩)
    cases hwoken : s.woken with
    | false => rfl
    | true =>
      have hpos := hstands.2 hwoken
      omega
  | joining left =>
    rw [hhosting] at hmoves hstands
    obtain ⟨hworkers, hbelow, hleft⟩ := hstands
    cases left with
    | nil => cases hmoves
    | cons id left =>
      have halive : s.departed id = false := by simpa using hmoves
      have hid := hbelow id List.mem_cons_self
      have hruns : s.runs id := ⟨by rw [hworkers]; exact List.mem_range.mpr hid, halive⟩
      obtain ⟨hshut, -⟩ := hleft id hid halive
      -- its thread has a step: of `handle_connection`, or the one that leaves
      cases hphase : (s.server.threads id).phase.over with
      | false =>
        have hsession := hstill (.session id {})
        simp [moves, takes, hruns, hphase, hshut] at hsession
      | true =>
        have hleave := hstill (.leave id)
        simp [moves, takes, ending, hruns, hphase, hover] at hleave
  | returned status =>
    rw [hhosting] at hstands
    cases status with
    | error error => exact Or.inr (Or.inr ⟨error, rfl⟩)
    | ok u =>
      refine Or.inl ⟨hhosting, hstands.1, ?_, hstands.2⟩
      refine List.eq_nil_iff_forall_not_mem.mpr fun id hid => ?_
      obtain ⟨hbelow, halive⟩ := (h.registered id).mp hid
      rw [hstands.2 id hbelow] at halive
      cases halive
  | _ =>
    rw [hhosting] at hmoves
    cases hmoves

/-- A service whose coordinator is stopping, while its process lives. -/
def winding (s : Option Service) : Prop := ∀ t ∈ s, t.Kept ∧ t.coordinator.stopping = true

theorem winding_step (s : Option Service) (event : ServiceEvent) (h : winding s) :
    winding (step s event) := by
  intro t ht
  obtain ⟨before, hbefore, hperform⟩ := Option.bind_eq_some_iff.mp ht
  obtain ⟨hkept, hstop⟩ := h before hbefore
  exact ⟨hkept.step hperform, hkept.stays hstop hperform⟩

theorem winding_left (s : Option Service) (event : ServiceEvent) (h : winding s) :
    (step s event).elim 0 left + (s.any fun t => t.takes event).toNat ≤ s.elim 0 left := by
  cases s with
  | none => exact le_rfl
  | some before =>
    obtain ⟨-, hstop⟩ := h before rfl
    cases hperform : before.perform event with
    | none => simpa [step, hperform] using perform_died hperform
    | some next =>
      have hleft := perform_left hstop hperform
      simpa [step, hperform] using hleft

/-- From every state that a run reaches with the coordinator stopping: however its peers, its
threads and the hosting program go on, the threads take a bounded number of steps; and where no
thread can take one that no peer has to bring about, `run` has returned with every thread it
started, unless the wake-up connection of `stop` did not get through and no other came, or an
`accept` had failed before. -/
theorem run_shutdown_ends (config : CoordinatorConfig) (environment : Coordinator.StartEnvironment)
    (disk : Option Text) (events : List ServiceEvent) :
    ∀ s ∈ runTo config environment disk events, s.coordinator.stopping = true →
      (∀ later, (calls step (some s) later).countP
        (fun call => call.1.any fun t => t.takes call.2) ≤ s.left) ∧
      ((∀ event, s.moves event = false) →
        s.Finished ∨ (s.hosting = .accepting ∧ s.woken = false ∧ s.backlog = 0) ∨
          ∃ error, s.hosting = .returned (.error error)) := by
  intro s hs hstop
  have hkept := run_kept config environment disk events s hs
  refine ⟨fun later => ?_, hkept.finished hstop⟩
  have hwinding : winding (some s) := by
    intro t ht
    obtain rfl := Option.some.inj ht
    exact ⟨hkept, hstop⟩
  have hcounted := @counted_calls_le _ _ step winding (fun t event => t.any fun u => u.takes event)
    (fun t => t.elim 0 left) winding_step winding_left (some s) hwinding later
  exact (Nat.le_add_right _ _).trans hcounted

/-- Two peers connect, one sends a shutdown frame, and the threads go on until none can. -/
def shutDown : List ServiceEvent :=
  let next : ServiceEvent := .host none
  let received : Input := { received := .ok { type := .shutdown } }
  [.connect, .connect] ++ List.replicate 9 next ++
    [.session 0 {}, .session 1 {}, .session 0 {}, .session 1 {}, .session 0 received, .session 0 received,
      .stopping true, .stopping true] ++ List.replicate 4 next ++
    [.stopping true, .stopping true, .stopping true, .leave 0, .session 1 {}, .leave 1, .session 2 {},
      .session 2 {}, .leave 2] ++ List.replicate 5 next

/-- Where no thread runs, `stop` is over and `run` has no step, nothing moves. -/
theorem still_of_host (hworkers : s.workers = []) (hover : s.stopper = .over)
    (hhost : s.moves (.host none) = false) : ∀ event, s.moves event = false := by
  intro event
  cases event with
  | host failed =>
    cases failed with
    | none => exact hhost
    | some error => rfl
  | session id input => simp [moves, takes, runs, hworkers]
  | leave id => simp [moves, takes, ending, runs, hworkers]
  | stopping reached => simp [moves, takes, hover]
  | _ => rfl

theorem run_shutdown_ends_received :
    ∃ s, runTo {} {} none shutDown = some s ∧ s.accepted = 3 ∧ s.Finished := by
  have hend : (runTo {} {} none shutDown).any (fun s => s.coordinator.stopping &&
      decide (s.accepted = 3 ∧ s.workers = [] ∧ s.stopper = .over) && !s.moves (.host none) &&
        !s.hosting.listens) = true := by
    decide +kernel
  cases hrun : runTo {} {} none shutDown with
  | none =>
    rw [hrun] at hend
    cases hend
  | some s =>
    rw [hrun] at hend
    simp only [Option.any_some, Bool.and_eq_true, decide_eq_true_eq, Bool.not_eq_true'] at hend
    obtain ⟨⟨⟨hstop, haccepted, hworkers, hover⟩, hhost⟩, hlistens⟩ := hend
    refine ⟨s, rfl, haccepted, ?_⟩
    have hends := (run_shutdown_ends {} {} none shutDown s hrun hstop).2
      (still_of_host hworkers hover hhost)
    rcases hends with hfinished | ⟨haccepting, -, -⟩ | ⟨error, hreturned⟩
    · exact hfinished
    · rw [haccepting] at hlistens
      cases hlistens
    · rw [hreturned] at hlistens
      cases hlistens

end Service

end IncastGovernor
