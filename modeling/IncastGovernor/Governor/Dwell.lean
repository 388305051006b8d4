import IncastGovernor.Governor.Hysteresis

/-! The release of a held incident. Of a sequence of windows below the recorded incident the
last one falls below it exactly when the clean streak, as the windows count it, meets the dwell
in time. A cap of the streak below the dwell holds the incident forever. -/

namespace IncastGovernor

/-! ### The dwell -/

/-- The clean streak after a window of this instantaneous kind. -/
def nextStreak (hysteresis : HysteresisPolicy) (streak : UInt32) (kind : IncidentKind) : UInt32 :=
  if kind.incident then 0 else min (streak + 1) hysteresis.maxCleanWindows

/-- The streak meets the dwell at a window that is recorded, or at the one after them all. The
windows are given by their instantaneous kinds, with whether they are recorded. -/
def reachesDwell (hysteresis : HysteresisPolicy) : UInt32 → List (IncidentKind × Bool) → Prop
  | streak, [] => streak + 1 ≥ hysteresis.minDwellWindows
  | streak, (kind, recorded) :: rest =>
    (recorded = true ∧ streak + 1 ≥ hysteresis.minDwellWindows) ∨
      reachesDwell hysteresis (nextStreak hysteresis streak kind) rest

variable {hysteresis : HysteresisPolicy} {streak : UInt32}

theorem nextStreak_le (kind : IncidentKind) :
    nextStreak hysteresis streak kind ≤ hysteresis.maxCleanWindows := by
  unfold nextStreak
  split_ifs
  · exact UInt32.zero_le
  · exact UInt32.min_le_right _ _

/-- A streak capped below the dwell never meets it, however many windows follow. -/
theorem not_reachesDwell_of_capped
    (hcap : hysteresis.maxCleanWindows.toNat + 1 < hysteresis.minDwellWindows.toNat)
    (h : streak ≤ hysteresis.maxCleanWindows) (windows : List (IncidentKind × Bool)) :
    ¬reachesDwell hysteresis streak windows := by
  have hunmet : ∀ streak ≤ hysteresis.maxCleanWindows,
      ¬streak + 1 ≥ hysteresis.minDwellWindows := by
    intro streak hle hmet
    have hlast := hysteresis.minDwellWindows.toNat_lt
    rw [UInt32.le_iff_toNat_le] at hle
    rw [ge_iff_le, UInt32.le_iff_toNat_le, UInt32.toNat_add, UInt32.toNat_one] at hmet
    have hlow := Nat.mod_le (streak.toNat + 1) (2 ^ 32)
    omega
  induction windows generalizing streak with
  | nil => exact hunmet streak h
  | cons window rest ih =>
    obtain ⟨kind, recorded⟩ := window
    rintro (⟨-, hmet⟩ | hrest)
    · exact hunmet streak h hmet
    · exact ih (nextStreak_le kind) hrest

/-- Ordinary windows that are all recorded meet a dwell within the cap: as many as it asks
for, less those the streak already counts. -/
theorem reachesDwell_of_calm
    (hcap : hysteresis.minDwellWindows.toNat ≤ hysteresis.maxCleanWindows.toNat + 1)
    (hlast : hysteresis.maxCleanWindows.toNat + 1 < 2 ^ 32)
    (h : streak ≤ hysteresis.maxCleanWindows) {windows : List (IncidentKind × Bool)}
    (hcalm : ∀ window ∈ windows, ¬window.1.incident ∧ window.2 = true)
    (hmany : hysteresis.minDwellWindows.toNat ≤ streak.toNat + windows.length + 1) :
    reachesDwell hysteresis streak windows := by
  have hsucc : ∀ streak ≤ hysteresis.maxCleanWindows, (streak + 1).toNat = streak.toNat + 1 := by
    intro streak hle
    rw [UInt32.le_iff_toNat_le] at hle
    rw [UInt32.toNat_add, UInt32.toNat_one]
    exact Nat.mod_eq_of_lt (by omega)
  induction windows generalizing streak with
  | nil =>
    unfold reachesDwell
    rw [ge_iff_le, UInt32.le_iff_toNat_le, hsucc streak h]
    exact hmany
  | cons window rest ih =>
    obtain ⟨kind, recorded⟩ := window
    obtain ⟨hkind, hrecorded⟩ := hcalm (kind, recorded) List.mem_cons_self
    by_cases hmet : streak + 1 ≥ hysteresis.minDwellWindows
    · exact .inl ⟨hrecorded, hmet⟩
    · have hbelow : ¬hysteresis.minDwellWindows.toNat ≤ streak.toNat + 1 := by
        rw [← hsucc streak h, ← UInt32.le_iff_toNat_le]
        exact hmet
      have hnext : nextStreak hysteresis streak kind = streak + 1 := by
        have hle : streak + 1 ≤ hysteresis.maxCleanWindows := by
          rw [UInt32.le_iff_toNat_le, hsucc streak h]
          omega
        unfold nextStreak
        rw [if_neg hkind, UInt32.min_def, if_pos hle]
      refine .inr (ih (nextStreak_le kind) (fun w hw => hcalm w (List.mem_cons_of_mem _ hw)) ?_)
      rw [hnext, hsucc streak h]
      rw [List.length_cons] at hmany
      omega

namespace Governor

variable {g : Governor} {bundle : EvidenceBundle}

/-! ### Windows below the incident -/

/-- The governor after a window. -/
def observe (g : Governor) (bundle : EvidenceBundle) : Governor := (g.evaluate bundle).2

/-- What the dwell depends on in a window: its instantaneous kind, and whether it is recorded. -/
def sight (call : Governor × EvidenceBundle) : IncidentKind × Bool :=
  ((call.1.windowClassification call.2).instantaneousKind,
    decide (call.1.liveFence call.2 = none))

/-- An accepted window whose instantaneous kind ranks below a bound. -/
structure Below (bound : ℤ) (call : Governor × EvidenceBundle) : Prop where
  accepted : call.1.accepts call.2
  rank : (call.1.windowClassification call.2).instantaneousKind.rank < bound

theorem evaluate_kind (h : g.accepts bundle) :
    (g.evaluate bundle).1.kind = (g.windowClassification bundle).kind := by
  rcases evaluate_cases g bundle with ⟨hn, -⟩ | ⟨_, view, denial, _, _, he⟩ | ⟨_, _, he⟩
  · exact absurd h hn
  · rw [he]
    rfl
  · rw [he, commit_kind, effectDecision_kind]

theorem observe_cleanStreak (h : g.accepts bundle) :
    (g.observe bundle).state.cleanStreak =
      nextStreak g.config.policy.hysteresis g.state.cleanStreak
        (g.windowClassification bundle).instantaneousKind := by
  have hcounted : (g.countedState bundle).cleanStreak =
      nextStreak g.config.policy.hysteresis g.state.cleanStreak
        (g.windowClassification bundle).instantaneousKind := by
    unfold countedState nextStreak
    split_ifs <;> rfl
  unfold observe
  rcases evaluate_cases g bundle with ⟨hn, -⟩ | ⟨_, view, denial, _, _, he⟩ | ⟨_, _, he⟩
  · exact absurd h hn
  · rw [he]
    exact hcounted
  · have heffect : (g.effectState bundle (g.effect bundle)).cleanStreak =
        (g.countedState bundle).cleanStreak := by
      cases g.effect bundle with
      | noAction live => cases live <;> rfl
      | _ => rfl
    rw [he]
    exact heffect.trans hcounted

/-- A record below the incident stays below it. -/
theorem below_of_released {bound : ℤ} (hb : 2 < bound) {windows : List EvidenceBundle}
    (hmax : 1 ≤ g.config.maxHistory) (hrecorded : g.recordedKind.rank < bound)
    (h : ∀ call ∈ Foundation.calls observe g windows, Below bound call) :
    (Foundation.run observe g windows).recordedKind.rank < bound := by
  refine (Foundation.run_invariant_of_calls (C := fun g bundle => Below bound (g, bundle))
    (P := fun g => 1 ≤ g.config.maxHistory ∧ g.recordedKind.rank < bound)
    (fun g bundle hg hcall => ⟨?_, ?_⟩) ⟨hmax, hrecorded⟩ h).2
  · rw [observe, evaluate_config]
    exact hg.1
  · rw [observe, evaluate_recordedKind hcall.accepted hg.1]
    split_ifs
    · exact rank_lt_of_below hcall.accepted hb hg.2 hcall.rank
    · exact hg.2

/-- A window that the dwell is not met in, or that is not recorded, leaves the recorded kind. -/
theorem observe_recordedKind_of_unmet (hmax : 1 ≤ g.config.maxHistory)
    (hk : g.recordedKind.incident) {window : EvidenceBundle}
    (h : Below g.recordedKind.rank (g, window))
    (hunmet : ¬(g.liveFence window = none ∧ g.dwellMet)) :
    (g.observe window).recordedKind = g.recordedKind := by
  rw [observe, evaluate_recordedKind h.accepted hmax]
  split_ifs with hf
  · exact (held_of_unmet h.accepted hk h.rank fun hd => hunmet ⟨hf, hd⟩).1
  · rfl

/-- A recorded window that meets the dwell is released, and all after it stay below. -/
theorem released_behind (hmax : 1 ≤ g.config.maxHistory) (hk : g.recordedKind.incident)
    {window last : EvidenceBundle} {rest : List EvidenceBundle}
    (h : ∀ call ∈ Foundation.calls observe g (window :: rest ++ [last]),
      Below g.recordedKind.rank call)
    (hmet : g.liveFence window = none ∧ g.dwellMet) :
    ((Foundation.run observe (g.observe window) rest).evaluate last).1.kind.rank <
      g.recordedKind.rank := by
  have hfirst : Below g.recordedKind.rank (g, window) := h _ List.mem_cons_self
  have hmax' : 1 ≤ (g.observe window).config.maxHistory := by
    rw [observe, evaluate_config]
    exact hmax
  have hreleased : (g.observe window).recordedKind.rank < g.recordedKind.rank := by
    rw [observe, evaluate_recordedKind hfirst.accepted hmax, if_pos hmet.1]
    exact released_of_met hfirst.accepted hk hfirst.rank hmet.2
  have hb := rank_of_incident hk
  rw [List.cons_append, Foundation.calls_cons, Foundation.calls_append] at h
  have hbelow := below_of_released hb hmax' hreleased fun call hc =>
    h call (List.mem_cons_of_mem _ (List.mem_append_left _ hc))
  have hlast : Below g.recordedKind.rank (Foundation.run observe (g.observe window) rest, last) :=
    h _ (List.mem_cons_of_mem _ (List.mem_append_right _ List.mem_cons_self))
  rw [evaluate_kind hlast.accepted]
  exact rank_lt_of_below hlast.accepted hb hbelow hlast.rank

/-- The release: after accepted windows below the recorded incident, one more of them falls
below it exactly when the streak meets the dwell. -/
theorem released_iff_reachesDwell (hmax : 1 ≤ g.config.maxHistory) {kind : IncidentKind}
    (hk : kind.incident) (hrecorded : g.recordedKind = kind) {windows : List EvidenceBundle}
    {last : EvidenceBundle}
    (h : ∀ call ∈ Foundation.calls observe g (windows ++ [last]), Below kind.rank call) :
    ((Foundation.run observe g windows).evaluate last).1.kind.rank < kind.rank ↔
      reachesDwell g.config.policy.hysteresis g.state.cleanStreak
        ((Foundation.calls observe g windows).map sight) := by
  induction windows generalizing g with
  | nil =>
    have hlast : Below kind.rank (g, last) := h _ List.mem_cons_self
    rw [Foundation.run_nil, evaluate_kind hlast.accepted]
    subst hrecorded
    constructor
    · intro hbelow
      by_contra hunmet
      rw [(held_of_unmet hlast.accepted hk hlast.rank hunmet).1] at hbelow
      exact lt_irrefl _ hbelow
    · exact released_of_met hlast.accepted hk hlast.rank
  | cons window rest ih =>
    subst hrecorded
    have hfirst : Below g.recordedKind.rank (g, window) := h _ List.mem_cons_self
    have hrest : ∀ call ∈ Foundation.calls observe (g.observe window) (rest ++ [last]),
        Below g.recordedKind.rank call := fun call hc => h call (List.mem_cons_of_mem _ hc)
    rw [Foundation.run_cons, Foundation.calls_cons, List.map_cons]
    show _ ↔ (decide (g.liveFence window = none) = true ∧ g.dwellMet) ∨ reachesDwell _ _ _
    rw [decide_eq_true_iff]
    by_cases hmet : g.liveFence window = none ∧ g.dwellMet
    · exact iff_of_true (released_behind hmax hk h hmet) (.inl hmet)
    · have hkept := observe_recordedKind_of_unmet hmax hk hfirst hmet
      have hmax' : 1 ≤ (g.observe window).config.maxHistory := by
        rw [observe, evaluate_config]
        exact hmax
      rw [ih hmax' hkept hrest, or_iff_right hmet, observe_cleanStreak hfirst.accepted]
      unfold observe
      rw [evaluate_config]

/-- Enough ordinary windows, all recorded, release the incident where the dwell is within the
cap of the streak. -/
theorem released_of_calm (hmax : 1 ≤ g.config.maxHistory) (hk : g.recordedKind.incident)
    {windows : List EvidenceBundle} {last : EvidenceBundle}
    (h : ∀ call ∈ Foundation.calls observe g (windows ++ [last]),
      Below g.recordedKind.rank call)
    (hcalm : ∀ call ∈ Foundation.calls observe g windows,
      ¬(sight call).1.incident ∧ (sight call).2 = true)
    (hcap : g.config.policy.hysteresis.minDwellWindows.toNat ≤
      g.config.policy.hysteresis.maxCleanWindows.toNat + 1)
    (hlast : g.config.policy.hysteresis.maxCleanWindows.toNat + 1 < 2 ^ 32)
    (hstreak : g.state.cleanStreak ≤ g.config.policy.hysteresis.maxCleanWindows)
    (hmany : g.config.policy.hysteresis.minDwellWindows.toNat ≤ windows.length + 1) :
    ((Foundation.run observe g windows).evaluate last).1.kind.rank < g.recordedKind.rank := by
  refine (released_iff_reachesDwell hmax hk rfl h).mpr
    (reachesDwell_of_calm hcap hlast hstreak (fun window hm => ?_) ?_)
  · obtain ⟨call, hc, rfl⟩ := List.mem_map.mp hm
    exact hcalm call hc
  · rw [List.length_map, Foundation.calls_length]
    omega

/-- Where the cap of the streak is below the dwell, windows below the incident are held at it
forever. -/
theorem not_released_of_capped (hmax : 1 ≤ g.config.maxHistory) (hk : g.recordedKind.incident)
    {windows : List EvidenceBundle} {last : EvidenceBundle}
    (h : ∀ call ∈ Foundation.calls observe g (windows ++ [last]),
      Below g.recordedKind.rank call)
    (hcap : g.config.policy.hysteresis.maxCleanWindows.toNat + 1 <
      g.config.policy.hysteresis.minDwellWindows.toNat)
    (hstreak : g.state.cleanStreak ≤ g.config.policy.hysteresis.maxCleanWindows) :
    ¬((Foundation.run observe g windows).evaluate last).1.kind.rank < g.recordedKind.rank :=
  fun hreleased => not_reachesDwell_of_capped hcap hstreak _
    ((released_iff_reachesDwell hmax hk rfl h).mp hreleased)

/-- In every reachable state whose recorded kind is an incident: the last of a sequence of
accepted windows below it falls below it exactly when the streak meets the dwell in time. -/
theorem run_released_iff {config : GovernorConfig} {operations : List Operation}
    (hmax : 1 ≤ config.maxHistory) (hg : g = Foundation.run step (create config) operations)
    (hk : g.recordedKind.incident) {windows : List EvidenceBundle} {last : EvidenceBundle}
    (h : ∀ call ∈ Foundation.calls observe g (windows ++ [last]),
      Below g.recordedKind.rank call) :
    ((Foundation.run observe g windows).evaluate last).1.kind.rank < g.recordedKind.rank ↔
      reachesDwell g.config.policy.hysteresis g.state.cleanStreak
        ((Foundation.calls observe g windows).map sight) := by
  refine released_iff_reachesDwell ?_ hk rfl h
  rw [hg, run_maxHistory]
  exact hmax

/-- The second calm window after the incident releases it. -/
theorem run_released_iff_calm :
    ((Foundation.run observe incidentGovernor [calmWindow 2 2000000000]).evaluate
        (calmWindow 3 3000000000)).1.kind.rank < incidentGovernor.recordedKind.rank ↔
      reachesDwell incidentGovernor.config.policy.hysteresis incidentGovernor.state.cleanStreak
        ((Foundation.calls observe incidentGovernor [calmWindow 2 2000000000]).map sight) := by
  have hmax : 1 ≤ sampleConfig.maxHistory := by decide
  refine run_released_iff hmax rfl (by decide +kernel) fun call hc => ?_
  have hbelow : ∀ call ∈ Foundation.calls observe incidentGovernor
      [calmWindow 2 2000000000, calmWindow 3 3000000000],
      call.1.accepts call.2 ∧ (call.1.windowClassification call.2).instantaneousKind.rank <
        incidentGovernor.recordedKind.rank := by
    decide +kernel
  exact ⟨(hbelow call hc).1, (hbelow call hc).2⟩

/-- A dwell of three windows over a streak capped at one. -/
def cappedConfig : GovernorConfig :=
  { sampleConfig with
    policy := { samplePolicy with
      hysteresis := { minDwellWindows := 3, maxCleanWindows := 1 } } }

/-- Three calm windows under that policy leave the incident where it is. -/
theorem capped_streak_holds_incident :
    ¬∀ (config : GovernorConfig) (operations : List Operation) (windows : List EvidenceBundle)
      (last : EvidenceBundle) (g : Governor), config.policy.validate = .ok () →
      1 ≤ config.maxHistory → g = Foundation.run step (create config) operations →
      g.recordedKind.incident →
      (windows ++ [last]).length = g.config.policy.hysteresis.minDwellWindows.toNat →
      (∀ call ∈ Foundation.calls observe g (windows ++ [last]),
        Below g.recordedKind.rank call) →
      ((Foundation.run observe g windows).evaluate last).1.kind.rank < g.recordedKind.rank := by
  intro h
  have hreleased := h cappedConfig [.evaluate incidentWindow]
    [calmWindow 2 2000000000, calmWindow 3 3000000000] (calmWindow 4 4000000000) _
    (by decide +kernel) (by decide) rfl (by decide +kernel) (by decide +kernel) fun call hc => by
      have hbelow : ∀ call ∈ Foundation.calls observe
          (Foundation.run step (create cappedConfig) [.evaluate incidentWindow])
          [calmWindow 2 2000000000, calmWindow 3 3000000000, calmWindow 4 4000000000],
          call.1.accepts call.2 ∧ (call.1.windowClassification call.2).instantaneousKind.rank <
            (Foundation.run step (create cappedConfig)
              [.evaluate incidentWindow]).recordedKind.rank := by
        decide +kernel
      exact ⟨(hbelow call hc).1, (hbelow call hc).2⟩
  exact absurd hreleased (by decide +kernel)

end Governor

end IncastGovernor
