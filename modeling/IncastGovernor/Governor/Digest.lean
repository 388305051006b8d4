import IncastGovernor.Governor.Caps

/-! What the digest of a document says about decisions. Validated documents that hash the same
bytes decide alike exactly when a dwell cannot tell their caps of the clean streak apart, or
when they refuse every bundle. The other way round two quiet windows after an incident tell
the caps apart. -/

namespace IncastGovernor

/-- The part of a decision that is acted on. -/
structure Verdict where
  kind : IncidentKind
  severity : Severity
  outcome : DecisionOutcome
  refusal : RefusalReason
  intent : MitigationIntent

def Decision.verdict (decision : Decision) : Verdict :=
  { kind := decision.kind, severity := decision.severity, outcome := decision.outcome
    refusal := decision.refusal, intent := decision.intent }

/-- No bundle passes the authority check under the document. -/
def GovernorPolicy.refusesAll (policy : GovernorPolicy) : Prop :=
  ∀ bundle, (checkAuthority bundle policy noSequences).reason ≠ .none

theorem GovernorPolicy.refusesAll_of_disabled {policy : GovernorPolicy}
    (h : policy.enabled = false) : policy.refusesAll := by
  intro bundle hgranted
  have henabled := (checkAuthority_reason_iff.mp hgranted).enabled
  rw [h] at henabled
  cases henabled

namespace Governor

def withPolicy (g : Governor) (policy : GovernorPolicy) : Governor :=
  { g with config := { g.config with policy } }

/-- The decisions of a sequence of bundles. -/
def decisions (g : Governor) (bundles : List EvidenceBundle) : List Decision :=
  Foundation.shown observe (fun g bundle => [(g.evaluate bundle).1]) g bundles

/-- From every state, over every sequence of bundles, two documents lead to one verdict after
the other alike. -/
def DecideAlike (p q : GovernorPolicy) : Prop :=
  ∀ (g : Governor) (bundles : List EvidenceBundle),
    ((g.withPolicy p).decisions bundles).map Decision.verdict =
      ((g.withPolicy q).decisions bundles).map Decision.verdict

/-! ### Caps that cannot be told apart -/

/-- Governors whose decisions cannot be told apart: they differ in caps and streaks, which
agree unless nothing is accepted. -/
def Indistinct (g h : Governor) : Prop :=
  ∃ caps streaks, h = g.recapped caps streaks ∧
    (g.config.policy.refusesAll ∨
      capsAgree g.config.policy.hysteresis.minDwellWindows
          g.config.policy.hysteresis.maxCleanWindows caps.2 ∧
        streaksAgree g.config.policy.hysteresis.minDwellWindows
          g.config.policy.hysteresis.maxCleanWindows caps.2 g.state.cleanStreak streaks.clean)

variable {g h : Governor} {bundle : EvidenceBundle}

theorem not_refusesAll_of_accepts (h : g.accepts bundle) : ¬g.config.policy.refusesAll := by
  intro hrefuses
  exact hrefuses bundle
    (checkAuthority_reason_iff.mpr (authorityGranted_of_accepts h).withoutSequences)

theorem Indistinct.observe (hindistinct : Indistinct g h) (bundle : EvidenceBundle) :
    Indistinct (g.observe bundle) (h.observe bundle) ∧
      [(g.evaluate bundle).1] = [(h.evaluate bundle).1] := by
  obtain ⟨caps, streaks, rfl, hagree⟩ := hindistinct
  have hconfig : (g.observe bundle).config = g.config := evaluate_config g bundle
  by_cases haccepts : g.accepts bundle
  · obtain ⟨hcaps, hstreaks⟩ := hagree.resolve_left (not_refusesAll_of_accepts haccepts)
    have hboth : (g.recapped caps streaks).evaluate bundle = _ :=
      recapped_evaluate bundle hstreaks.dwell haccepts
    refine ⟨⟨caps, _, congrArg Prod.snd hboth, .inr ?_⟩, ?_⟩
    · rw [hconfig, Streaks.next_clean, observe_cleanStreak haccepts]
      exact ⟨hcaps, hstreaks.next hcaps _⟩
    · rw [hboth]
  · have hboth := g.recapped_evaluate_refused bundle caps streaks haccepts
    have hclean : (g.observe bundle).state.cleanStreak = g.state.cleanStreak := by
      obtain ⟨decision, reason, detail, he⟩ := evaluate_refused haccepts
      unfold Governor.observe
      rw [he]
      rfl
    refine ⟨⟨caps, streaks, congrArg Prod.snd hboth, ?_⟩, ?_⟩
    · rw [hconfig, hclean]
      exact hagree
    · rw [hboth]

/-- Where the caps agree, whole decisions are the same. -/
theorem decisions_eq_of_indistinct (hindistinct : Indistinct g h)
    (bundles : List EvidenceBundle) : g.decisions bundles = h.decisions bundles :=
  Foundation.shown_eq_of_related (fun _ _ bundle hrelated => hrelated.observe bundle) hindistinct
    bundles

/-! ### Quiet windows -/

/-- The stamps of a bundle without their sequences, nobody sending, bound to the governor that
is told apart. -/
def quiet (bundle : EvidenceBundle) : EvidenceBundle :=
  { bundle with
    destinationGeneration := {}
    fanInStamp := { bundle.fanInStamp with sequence := 0 }
    senders := []
    capacityStamp := { bundle.capacityStamp with sequence := 0 }
    queueStamp := { bundle.queueStamp with sequence := 0 }
    timingStamp := { bundle.timingStamp with sequence := 0 }
    rateStamp := { bundle.rateStamp with sequence := 0 }
    serviceStamp := { bundle.serviceStamp with sequence := 0 }
    provenanceStamp := { bundle.provenanceStamp with sequence := 0 }
    policyStamp := {}
    epoch := ⟨1⟩
    boot := ⟨1⟩
    worker := ⟨1⟩
    lease := ⟨1⟩
    leaseExpiry := {} }

/-- A governor whose last recorded window was an active incast, with a clean streak. -/
def recovering (policy : GovernorPolicy) (cleanStreak : UInt32) : Governor :=
  { config := { policy, worker := ⟨1⟩, lease := ⟨1⟩, epoch := ⟨1⟩, boot := ⟨1⟩ }
    state := { history := [{ kind := .activeIncast }], cleanStreak } }

section Quiet

variable {policy : GovernorPolicy}

theorem assessStamp_quiet (last : PerClass UInt64) (klass : EvidenceClass) :
    assessStamp (quiet bundle) policy last klass = assessStamp bundle policy noSequences klass := by
  have hstamp : (quiet bundle).stampFor klass =
      { bundle.stampFor klass with sequence := 0 } := by
    cases klass <;> rfl
  unfold assessStamp
  simp only [hstamp, noSequences, PerClass.get_ofFn, ne_eq, not_true_eq_false, false_and,
    and_false, if_false]
  rfl

theorem granted_quiet (h : AuthorityGranted bundle policy noSequences) (last : PerClass UInt64) :
    AuthorityGranted (quiet bundle) policy last where
  enabled := h.enabled
  structural := by
    obtain ⟨hdestination, hwindow, hevent, hnow, hspan, -, hqueues⟩ := h.structural
    exact ⟨hdestination, hwindow, hevent, hnow, hspan, Nat.zero_le _, hqueues⟩
  required klass hreq := by
    rw [assessStamp_quiet]
    exact h.required klass hreq
  provenance hp := by
    rw [assessStamp_quiet]
    exact h.provenance hp
  bindings := by
    have hone : (1 : UInt64) ≠ 0 := by decide
    have hboot : (quiet bundle).boot.valid := hone
    have hlease : (quiet bundle).lease.valid := hone
    have hepoch : (quiet bundle).epoch.valid := hone
    unfold missingBinding
    rw [if_neg fun hc => hc.2 hboot, if_neg fun hc => hc.2 hlease,
      if_neg fun hc => hc.2.1 rfl, if_neg fun hc => hc.2 hepoch]

theorem accepts_quiet {cleanStreak : UInt32}
    (hc : g.config = (recovering policy cleanStreak).config) (ha : g.accepting = true)
    (h : AuthorityGranted bundle policy noSequences) : g.accepts (quiet bundle) := by
  have hgranted := granted_quiet h (g.referenceSequences (quiet bundle))
  have hstructural := hgranted.structural
  constructor
  · unfold bindingRefusal
    rw [hc]
    simp only [ha, recovering, StrongId.valid, Generation.valid, EpochId.valid,
      BootIncarnation.valid, Timestamp.valid, hstructural]
    simp [quiet]
  · unfold authorityCheck
    rw [hc]
    exact checkAuthority_reason_iff.mpr hgranted

/-- Nobody sending is no fan-in. -/
theorem classify_quiet (h : AuthorityGranted bundle policy noSequences) (hp : policy.Validated)
    (context : ClassificationContext) :
    (classify (quiet bundle) policy (detectCollisions (quiet bundle)) context).instantaneousKind =
      .noFanIn := by
  have hsynchronization : (classify (quiet bundle) policy (detectCollisions (quiet bundle))
      context).synchronization.evaluated = true := by
    unfold classify
    simp only
    split_ifs <;> rfl
  have hactive : (classify (quiet bundle) policy (detectCollisions (quiet bundle))
      context).metrics.activeSenders = 0 := by
    rw [classify_metrics]
    rfl
  have hmany : (0 : UInt32) < policy.synchronization.manyToOneMinSenders :=
    UInt32.lt_of_lt_of_le (by decide : (0 : UInt32) < 2) hp.many
  rw [classify_instantaneousKind (granted_quiet h noSequences)]
  unfold classifyInstantaneous
  simp only
  rw [if_neg (not_not.mpr hsynchronization), hactive, if_pos hmany]

theorem evaluate_accepting (g : Governor) (bundle : EvidenceBundle) :
    (g.evaluate bundle).2.accepting = g.accepting := by
  rcases evaluate_cases g bundle with ⟨-, decision, reason, detail, he⟩ | ⟨-, view, denial, -, -, he⟩ |
    ⟨-, -, he⟩ <;> rw [he] <;> rfl

/-- The governors the quiet windows meet: bound as the recovering one. -/
structure Bound (policy : GovernorPolicy) (g : Governor) : Prop where
  config : g.config = (recovering policy 0).config
  accepting : g.accepting = true

theorem bound_recovering (policy : GovernorPolicy) (cleanStreak : UInt32) :
    Bound policy (recovering policy cleanStreak) := ⟨rfl, rfl⟩

theorem Bound.observe (h : Bound policy g) (bundle : EvidenceBundle) :
    Bound policy (g.observe bundle) :=
  ⟨(evaluate_config g bundle).trans h.config, (evaluate_accepting g bundle).trans h.accepting⟩

theorem Bound.accepts (hg : Bound policy g) (h : AuthorityGranted bundle policy noSequences) :
    g.accepts (quiet bundle) := accepts_quiet hg.config hg.accepting h

theorem Bound.maxHistory (hg : Bound policy g) : 1 ≤ g.config.maxHistory := by
  rw [hg.config]
  show 1 ≤ 64
  decide

theorem Bound.quiet_kind (hg : Bound policy g) (hp : policy.Validated)
    (h : AuthorityGranted bundle policy noSequences) :
    (g.windowClassification (quiet bundle)).instantaneousKind = .noFanIn := by
  rw [(windowClassification_fields g (quiet bundle)).1, classified, hg.config]
  exact classify_quiet h hp _

/-- A streak that does not meet the dwell holds the incident over the first quiet window; the
second one is released as the next streak meets it. -/
theorem recovering_twice_of_unmet {cleanStreak : UInt32}
    (h : AuthorityGranted bundle policy noSequences) (hp : policy.Validated)
    (hunmet : ¬cleanStreak + 1 ≥ policy.hysteresis.minDwellWindows) :
    (((recovering policy cleanStreak).observe (quiet bundle)).evaluate
        (quiet bundle)).1.kind.rank < IncidentKind.activeIncast.rank ↔
      min (cleanStreak + 1) policy.hysteresis.maxCleanWindows + 1 ≥
        policy.hysteresis.minDwellWindows := by
  have hbelow : ∀ g : Governor, Bound policy g →
      Below IncidentKind.activeIncast.rank (g, quiet bundle) := by
    intro g hg
    refine ⟨hg.accepts h, ?_⟩
    simp only [hg.quiet_kind hp h]
    decide
  have hfirst := bound_recovering policy cleanStreak
  have hrelease := @released_iff_reachesDwell (recovering policy cleanStreak) hfirst.maxHistory
    .activeIncast (.inr rfl) rfl [quiet bundle] (quiet bundle) fun call hc => by
      rcases List.mem_cons.mp hc with rfl | hc
      · exact hbelow _ hfirst
      · rw [List.mem_singleton.mp hc]
        exact hbelow _ (hfirst.observe _)
  refine hrelease.trans ?_
  show (_ ∧ _) ∨ nextStreak _ _ ((recovering policy cleanStreak).windowClassification
    (quiet bundle)).instantaneousKind + 1 ≥ _ ↔ _
  rw [or_iff_right fun hmet => hunmet hmet.2, hfirst.quiet_kind hp h]
  rfl

/-- Below an active incast a met dwell steps down to Recovery. -/
theorem applyHysteresis_of_active {context : ClassificationContext}
    (hprior : context.priorKind = .activeIncast)
    (hmet : context.cleanStreak + 1 ≥ policy.hysteresis.minDwellWindows) :
    (applyHysteresis policy context .noFanIn).1 = .recovery := by
  unfold applyHysteresis
  simp only [hprior]
  rw [if_pos (by decide), if_neg (not_not.mpr hmet), if_pos (by decide)]

/-- Below Recovery the dwell decides once more. -/
theorem applyHysteresis_of_recovery {context : ClassificationContext}
    (hprior : context.priorKind = .recovery) :
    (applyHysteresis policy context .noFanIn).1 =
      if context.cleanStreak + 1 ≥ policy.hysteresis.minDwellWindows then .noFanIn
      else .recovery := by
  unfold applyHysteresis
  simp only [hprior]
  rw [if_pos (by decide)]
  by_cases hmet : context.cleanStreak + 1 ≥ policy.hysteresis.minDwellWindows
  · rw [if_neg (not_not.mpr hmet), if_neg (by decide), if_pos hmet]
  · rw [if_pos hmet, if_neg hmet]

/-- A quiet window that meets no live record is classified by its hysteresis alone. -/
theorem Bound.quiet_classified (hg : Bound policy g) (hp : policy.Validated)
    (h : AuthorityGranted bundle policy noSequences) (hv : g.liveView = none) :
    (g.windowClassification (quiet bundle)).kind =
      (applyHysteresis policy g.classificationContext .noFanIn).1 := by
  have hquiet := hg.quiet_kind hp h
  rw [(windowClassification_fields g (quiet bundle)).1] at hquiet
  rw [windowClassification_eq, hv, if_neg (fun hc => Bool.false_ne_true hc.1),
    (classified_kind (hg.accepts h)).1, hquiet, hg.config]
  rfl

/-- A streak that meets the dwell steps the first quiet window down to Recovery. -/
theorem recovering_steps_down {cleanStreak : UInt32}
    (h : AuthorityGranted bundle policy noSequences) (hp : policy.Validated)
    (hmet : cleanStreak + 1 ≥ policy.hysteresis.minDwellWindows) :
    ((recovering policy cleanStreak).windowClassification (quiet bundle)).kind = .recovery := by
  rw [(bound_recovering policy cleanStreak).quiet_classified hp h rfl]
  exact applyHysteresis_of_active rfl hmet

/-- That window acts on nothing, so that no record is live behind it. -/
theorem recovering_liveView {cleanStreak : UInt32}
    (h : AuthorityGranted bundle policy noSequences) (hp : policy.Validated)
    (hmet : cleanStreak + 1 ≥ policy.hysteresis.minDwellWindows) :
    ((recovering policy cleanStreak).observe (quiet bundle)).liveView = none := by
  have haccepts := (bound_recovering policy cleanStreak).accepts h
  have heffect := effect_by (recovering policy cleanStreak) (quiet bundle)
  unfold liveView Governor.observe
  rw [evaluate_committed haccepts rfl, commit_interventions, effectState_interventions]
  generalize (recovering policy cleanStreak).effect (quiet bundle) = effect at heffect ⊢
  cases heffect with
  | issue _ ha => exact absurd ha (not_actsOnIncident_of_recovery (recovering_steps_down h hp hmet))
  | idle => rfl
  | hold live hl | carryOn live hl | recover live hl | relax live hl | retireUnfounded live hl
  | keep live hl => cases hl

theorem recovering_recordedKind {cleanStreak : UInt32}
    (h : AuthorityGranted bundle policy noSequences) (hp : policy.Validated)
    (hmet : cleanStreak + 1 ≥ policy.hysteresis.minDwellWindows) :
    ((recovering policy cleanStreak).observe (quiet bundle)).recordedKind = .recovery := by
  have hfirst := bound_recovering policy cleanStreak
  have hfence : (recovering policy cleanStreak).liveFence (quiet bundle) = none := rfl
  unfold Governor.observe
  rw [evaluate_recordedKind (hfirst.accepts h) hfirst.maxHistory, if_pos hfence,
    recovering_steps_down h hp hmet]

/-- The second quiet window leaves Recovery as the next streak meets the dwell. -/
theorem recovering_twice_of_met {cleanStreak : UInt32}
    (h : AuthorityGranted bundle policy noSequences) (hp : policy.Validated)
    (hmet : cleanStreak + 1 ≥ policy.hysteresis.minDwellWindows) :
    (((recovering policy cleanStreak).observe (quiet bundle)).evaluate (quiet bundle)).1.kind =
      if min (cleanStreak + 1) policy.hysteresis.maxCleanWindows + 1 ≥
        policy.hysteresis.minDwellWindows then .noFanIn else .recovery := by
  have hfirst := bound_recovering policy cleanStreak
  have hsecond := hfirst.observe (quiet bundle)
  have hstreak : ((recovering policy cleanStreak).observe (quiet bundle)).state.cleanStreak =
      min (cleanStreak + 1) policy.hysteresis.maxCleanWindows := by
    rw [observe_cleanStreak (hfirst.accepts h), hfirst.quiet_kind hp h]
    rfl
  rw [evaluate_kind (hsecond.accepts h),
    hsecond.quiet_classified hp h (recovering_liveView h hp hmet),
    applyHysteresis_of_recovery (recovering_recordedKind h hp hmet), ← hstreak]
  rfl

end Quiet

/-! ### Caps that quiet windows tell apart -/

section Parting

variable {minDwell a b : UInt32}

/-- A streak one below the dwell after the next window: the cap that is short of the dwell
cuts it. -/
theorem parting_of_short (ha : short minDwell a) (hb : ¬short minDwell b) :
    ¬min (minDwell - 1 - 1 + 1) a + 1 ≥ minDwell ∧ min (minDwell - 1 - 1 + 1) b + 1 ≥ minDwell := by
  rw [UInt32.sub_add_cancel]
  unfold short at ha hb
  have hone : (1 : UInt32) ≤ minDwell := by
    rw [UInt32.le_iff_toNat_le, UInt32.toNat_one]
    omega
  have hpred : (minDwell - 1).toNat = minDwell.toNat - 1 := by
    rw [UInt32.toNat_sub_of_le _ _ hone, UInt32.toNat_one]
  constructor
  · exact not_dwell_of_short (short_of_le ha (UInt32.min_le_right _ _))
  · have hle : minDwell - 1 ≤ b := by
      rw [UInt32.le_iff_toNat_le, hpred]
      omega
    rw [UInt32.min_def, if_pos hle, UInt32.sub_add_cancel]
    exact UInt32.le_refl _

/-- A streak that leaves 32 bits after the next window: only the last cap lets it. -/
theorem parting_of_last (hd : minDwell ≠ 0) (ha : within minDwell a) (hb : b.toNat + 1 = 2 ^ 32) :
    min (b - 1 + 1) a + 1 ≥ minDwell ∧ ¬min (b - 1 + 1) b + 1 ≥ minDwell := by
  rw [UInt32.sub_add_cancel]
  constructor
  · have hgt : ¬b ≤ a := by
      rw [UInt32.le_iff_toNat_le]
      unfold within at ha
      omega
    rw [UInt32.min_def, if_neg hgt]
    exact dwell_of_within ha
  · have hlast : b + 1 = 0 := by
      apply UInt32.toNat_inj.mp
      rw [UInt32.toNat_add, UInt32.toNat_one, hb]
      rfl
    rw [UInt32.min_def, if_pos (UInt32.le_refl b), hlast]
    intro hle
    exact hd (UInt32.le_zero_iff.mp hle)

theorem last_of_neither (hs : ¬short minDwell a) (hw : ¬within minDwell a) :
    a.toNat + 1 = 2 ^ 32 := by
  have hlt := a.toNat_lt
  unfold short at hs
  unfold within at hw
  omega

/-- Caps that a dwell can tell apart part some streak at the next window. -/
theorem exists_parting (hd : minDwell ≠ 0) (h : ¬capsAgree minDwell a b) :
    ∃ cleanStreak, ¬(min (cleanStreak + 1) a + 1 ≥ minDwell ↔
      min (cleanStreak + 1) b + 1 ≥ minDwell) := by
  unfold capsAgree at h
  push Not at h
  obtain ⟨hne, hshort, hwithin⟩ := h
  by_cases ha : short minDwell a
  · have hpart := parting_of_short ha (hshort ha)
    exact ⟨_, fun hiff => hpart.1 (hiff.mpr hpart.2)⟩
  by_cases hb : short minDwell b
  · have hpart := parting_of_short hb ha
    exact ⟨_, fun hiff => hpart.1 (hiff.mp hpart.2)⟩
  by_cases haw : within minDwell a
  · have hpart := parting_of_last hd haw (last_of_neither hb (hwithin haw))
    exact ⟨_, fun hiff => hpart.2 (hiff.mp hpart.1)⟩
  by_cases hbw : within minDwell b
  · have hpart := parting_of_last hd hbw (last_of_neither ha haw)
    exact ⟨_, fun hiff => hpart.2 (hiff.mpr hpart.1)⟩
  · have hlast := (last_of_neither ha haw).trans (last_of_neither hb hbw).symm
    exact absurd (UInt32.toNat_inj.mp (Nat.succ.inj hlast)) hne

end Parting

/-- Two quiet windows tell documents apart whose caps part a streak. -/
theorem capsAgree_of_decideAlike {p q : GovernorPolicy}
    (hq : q = p.withCaps q.hysteresis.maxIncidentWindows q.hysteresis.maxCleanWindows)
    (hp : p.Validated) (halike : DecideAlike p q) (h : AuthorityGranted bundle p noSequences) :
    capsAgree p.hysteresis.minDwellWindows p.hysteresis.maxCleanWindows
      q.hysteresis.maxCleanWindows := by
  by_contra hcaps
  obtain ⟨cleanStreak, hpart⟩ := exists_parting hp.dwell hcaps
  have hqvalidated : q.Validated := by
    rw [hq]
    exact ⟨hp.name, hp.many, hp.dwell, hp.horizon, hp.provenance⟩
  have hqgranted : AuthorityGranted bundle q noSequences := by
    rw [hq]
    exact ⟨h.enabled, h.structural, h.required, h.provenance, h.bindings⟩
  have hdwell : q.hysteresis.minDwellWindows = p.hysteresis.minDwellWindows := by
    rw [hq]
    rfl
  have hsecond : (((recovering p cleanStreak).observe (quiet bundle)).evaluate
      (quiet bundle)).1.kind = (((recovering q cleanStreak).observe (quiet bundle)).evaluate
      (quiet bundle)).1.kind := by
    have hverdicts := halike (recovering p cleanStreak) [quiet bundle, quiet bundle]
    exact congrArg Verdict.kind (List.cons.inj (List.cons.inj hverdicts).2).1
  by_cases hmet : cleanStreak + 1 ≥ p.hysteresis.minDwellWindows
  · have hpkind := recovering_twice_of_met h hp hmet
    have hqkind := recovering_twice_of_met hqgranted hqvalidated (hdwell ▸ hmet)
    rw [hpkind, hqkind, hdwell] at hsecond
    split_ifs at hsecond with hpnext hqnext hqnext
    · exact hpart (iff_of_true hpnext hqnext)
    · exact hpart (iff_of_false hpnext hqnext)
  · have hprank := recovering_twice_of_unmet h hp hmet
    have hqrank := recovering_twice_of_unmet hqgranted hqvalidated (hdwell ▸ hmet)
    rw [hsecond, hqrank, hdwell] at hprank
    exact hpart hprank.symm

/-- Documents that hash the same bytes decide alike exactly when a dwell cannot tell their caps
of the clean streak apart, or when they refuse every bundle. -/
theorem decideAlike_iff {p q : GovernorPolicy} (hp : p.validate = .ok ())
    (hq : q.validate = .ok ()) (hbytes : p.digestBytes = q.digestBytes) :
    DecideAlike p q ↔
      capsAgree p.hysteresis.minDwellWindows p.hysteresis.maxCleanWindows
          q.hysteresis.maxCleanWindows ∨
        p.refusesAll := by
  have hpvalid := GovernorPolicy.validated_of_validate hp
  have hcaps := GovernorPolicy.eq_withCaps_of_digestBytes hpvalid
    (GovernorPolicy.validated_of_validate hq) hbytes
  constructor
  · intro halike
    by_contra hneither
    push Not at hneither
    obtain ⟨hcapsApart, haccepts⟩ := hneither
    unfold GovernorPolicy.refusesAll at haccepts
    push Not at haccepts
    obtain ⟨bundle, hgranted⟩ := haccepts
    exact hcapsApart (capsAgree_of_decideAlike hcaps hpvalid halike
      (checkAuthority_reason_iff.mp hgranted))
  · intro hagree g bundles
    have hindistinct : Indistinct (g.withPolicy p) (g.withPolicy q) := by
      refine ⟨(q.hysteresis.maxIncidentWindows, q.hysteresis.maxCleanWindows),
        ⟨g.state.incidentStreak, g.state.cleanStreak, g.state.recovery.cleanWindows⟩, ?_, ?_⟩
      · unfold withPolicy recapped
        simp only
        rw [← hcaps]
        rfl
      · rcases hagree with hagree | hrefuses
        · exact .inr ⟨hagree, .inl rfl⟩
        · exact .inl hrefuses
    rw [decisions_eq_of_indistinct hindistinct bundles]

/-- Caps beyond the dwell of two windows make no difference. -/
theorem decideAlike_iff_sample :
    DecideAlike samplePolicy (samplePolicy.withCaps 7 9) ↔
      capsAgree 2 4096 9 ∨ samplePolicy.refusesAll :=
  decideAlike_iff (by decide +kernel) (by decide +kernel) rfl

/-- A dwell of three windows over a streak capped at one, and over one that is not: an incident
and three calm windows end on different kinds. -/
theorem capped_documents_decide_apart :
    ¬∀ p q : GovernorPolicy, p.validate = .ok () → q.validate = .ok () →
      p.digestBytes = q.digestBytes → DecideAlike p q := by
  intro h
  have halike := h cappedConfig.policy (cappedConfig.policy.withCaps 4096 4096)
    (by decide +kernel) (by decide +kernel) rfl (create cappedConfig)
    [incidentWindow, calmWindow 2 2000000000, calmWindow 3 3000000000, calmWindow 4 4000000000]
  have hkinds := congrArg (List.map Verdict.kind) halike
  exact absurd hkinds (by decide +kernel)

end Governor

end IncastGovernor
