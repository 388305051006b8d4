import IncastGovernor.Governor.Soundness

/-! The expiry boundary of a live record. The evaluation asks for a revalidation there, after
the fence; the fence looks at the same boundary first, and its end is terminal. -/

namespace IncastGovernor

namespace Governor

variable {g : Governor} {bundle : EvidenceBundle} {view : LiveView}

/-- An accepted window finds a record in force, under its own binding, past its expiry. -/
structure PastExpiry (g : Governor) (bundle : EvidenceBundle) (view : LiveView) : Prop where
  accepts : g.accepts bundle
  found : g.liveView = some view
  inForce : view.live.state = .active ∨ view.live.state = .relaxing
  epoch : view.live.epoch = g.config.epoch
  boot : view.live.boot = g.config.boot
  worker : view.live.worker = g.config.worker
  lease : view.live.lease = g.config.lease
  past : g.instant bundle > view.live.expiresAt

/-- The window moves the record to Revalidating before it acts on it, and does not fence it. -/
def revalidatesAtExpiry (g : Governor) (bundle : EvidenceBundle) : Prop :=
  (∃ record, g.liveRecord bundle = some record ∧ record.state = .revalidating) ∧
    (g.evaluate bundle).1.outcome ≠ .interventionFenced

/-- The fence of a record under its own binding is the one of the expiry boundary. -/
theorem liveFence_of_pastExpiry (h : PastExpiry g bundle view)
    (hv : view.live.expiresAt.valid) :
    g.liveFence bundle = some (.awaitingRecoveryPolicy,
      ascii "intervention reached its expiry boundary and requires revalidation") := by
  have hb := bindingGranted_of_accepts h.accepts
  have hnow : (g.instant bundle).valid := by
    rw [instant_of_structurallyValid hb.structural]
    exact hb.structural.2.2.2.1
  unfold liveFence
  rw [h.found]
  show isFenced view.live (g.fenceContext bundle) = _
  unfold isFenced fenceContext
  rw [if_neg fun hc => hc.2 h.epoch, if_neg fun hc => hc.2 h.boot,
    if_neg fun hc => hc.2.2 h.worker, if_neg fun hc => hc.2.2 h.lease,
    if_neg fun hc => hb.leaseExpiry hc.1 hc.2.2, if_pos ⟨hv, hnow, h.past⟩]

/-- A record without an expiry is not touched by the boundary. -/
theorem liveRecord_of_invalid (hview : g.liveView = some view)
    (hv : ¬view.live.expiresAt.valid) : g.liveRecord bundle = some view.live := by
  unfold liveRecord
  rw [hview]
  show some (expireRecord _ view.live) = _
  unfold expireRecord
  rw [if_neg fun hc => hv hc.1]

/-- The expiry boundary never revalidates: a record that has one is fenced there. -/
theorem expiry_never_revalidates (h : PastExpiry g bundle view) :
    ¬g.revalidatesAtExpiry bundle ∧
      (view.live.expiresAt.valid →
        (g.evaluate bundle).1.outcome = .interventionFenced ∧
        (g.evaluate bundle).1.refusal = .awaitingRecoveryPolicy ∧
        ∃ record, (g.evaluate bundle).2.state.interventions = view.put record ∧
          record.id = view.live.id ∧ record.state = .fenced ∧ record.state.terminal) := by
  have hfenced : view.live.expiresAt.valid → g.evaluate bundle =
      g.fence bundle view .awaitingRecoveryPolicy
        (ascii "intervention reached its expiry boundary and requires revalidation") := by
    intro hv
    rw [evaluate_fenced h.accepts h.found (liveFence_of_pastExpiry h hv)]
  constructor
  · rintro ⟨⟨record, hrecord, hstate⟩, houtcome⟩
    by_cases hv : view.live.expiresAt.valid
    · apply houtcome
      rw [hfenced hv, fence_outcome]
    · rw [liveRecord_of_invalid h.found hv] at hrecord
      rw [← Option.some.inj hrecord] at hstate
      rcases h.inForce with hactive | hrelaxing
      · rw [hactive] at hstate
        cases hstate
      · rw [hrelaxing] at hstate
        cases hstate
  · intro hv
    have hmoved := fencedRecord_movedTo (g.instant bundle)
      (ascii "intervention reached its expiry boundary and requires revalidation") view.live
    rw [hfenced hv, fence_outcome, fence_refusal, fence_interventions]
    refine ⟨rfl, rfl, _, rfl, hmoved.same.id, hmoved.state, ?_⟩
    rw [hmoved.state]
    exact Or.inr (Or.inl rfl)

/-! ### An expired intervention -/

/-- A governor whose lease lasts, with the intervention of an incident. -/
def leasedConfig : GovernorConfig := { sampleConfig with leaseExpiry := ⟨9000000000000⟩ }

/-- The next incident window, seven seconds in; the intervention expires after six. -/
def expiredWindow : EvidenceBundle :=
  sampleBundle 2 7000000000 [sampleRow 1 1500, sampleRow 2 1500]

/-- The live record of the incident. -/
def incidentView : LiveView :=
  { before := [], after := []
    live := createdRecord incidentWindow samplePolicy ⟨1000000000⟩
      ((create leasedConfig).synthesis incidentWindow).intent }

theorem pastExpiry_incident :
    PastExpiry ((create leasedConfig).step (.evaluate incidentWindow)) expiredWindow incidentView where
  accepts := by decide +kernel
  found := by decide +kernel
  inForce := by decide +kernel
  epoch := by decide +kernel
  boot := by decide +kernel
  worker := by decide +kernel
  lease := by decide +kernel
  past := by decide +kernel

theorem expiry_never_revalidates_incident :
    let g := (create leasedConfig).step (.evaluate incidentWindow)
    ¬g.revalidatesAtExpiry expiredWindow ∧
      (g.evaluate expiredWindow).1.outcome = .interventionFenced := by
  have h := expiry_never_revalidates pastExpiry_incident
  exact ⟨h.1, (h.2 (by decide +kernel)).1⟩

/-- Some run expires an intervention under an unexpired lease, and does not revalidate it. -/
theorem expired_intervention_is_fenced :
    ¬∀ (config : GovernorConfig) (operations : List Operation) (bundle : EvidenceBundle)
      (view : LiveView),
      PastExpiry (Foundation.run step (create config) operations) bundle view →
        (Foundation.run step (create config) operations).revalidatesAtExpiry bundle := by
  intro h
  have hrevalidates := h leasedConfig [.evaluate incidentWindow] expiredWindow incidentView
    pastExpiry_incident
  have hfenced : ((create leasedConfig).step (.evaluate incidentWindow)).evaluate expiredWindow
      |>.1.outcome = .interventionFenced := by decide +kernel
  exact hrevalidates.2 hfenced

end Governor

end IncastGovernor
