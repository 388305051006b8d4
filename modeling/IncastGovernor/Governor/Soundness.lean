import IncastGovernor.Governor.Steps

/-! Authority soundness. An authorized decision stands behind every binding, evidence and
fencing check, and the record it names is a record of the table under the bound epoch
and boot. Two conditions on the evidence of a run carry this: the age of a stamp has to
fit the signed nanoseconds it is computed in, and no source incarnation replays a
sequence the governor no longer remembers. -/

namespace IncastGovernor

/-! ### Freshness over the integers -/

theorem toInt_toInt64 (u : UInt64) :
    u.toInt64.toInt = (u.toNat : ℤ).bmod (2 ^ 64) := by
  show u.toBitVec.toInt = _
  rw [BitVec.toInt_eq_toNat_bmod]
  rfl

/-- The wrapped freshness test bounds the age over the integers as long as the age fits. -/
theorem age_le_of_fresh {now observed : Int64} {horizon : UInt64}
    (hle : observed.toInt ≤ now.toInt) (h : ¬now - observed > horizon.toInt64)
    (hage : now.toInt - observed.toInt < 2 ^ 63) :
    now.toInt - observed.toInt ≤ horizon.toNat := by
  rw [gt_iff_lt, Int64.lt_iff_toInt_lt, Int64.toInt_sub, toInt_toInt64] at h
  rw [Int.bmod_eq_of_le (n := now.toInt - observed.toInt) (by omega) (by omega)] at h
  have hb := horizon.toNat_lt
  by_cases hs : horizon.toNat < 2 ^ 63
  · rw [Int.bmod_eq_of_le (by omega) (by omega)] at h
    omega
  · omega

namespace Governor

/-! ### The sequences a source incarnation had accepted -/

/-- The accepted bundles of a run: those whose sequences the state still holds, and
those it forgot when another incarnation was accepted or the state was replaced. -/
structure SequenceLog where
  remembered : List EvidenceBundle := []
  forgotten : List EvidenceBundle := []

def SequenceLog.forget (log : SequenceLog) : SequenceLog :=
  { remembered := [], forgotten := log.remembered ++ log.forgotten }

/-- The log of an operation. -/
def SequenceLog.after (log : SequenceLog) (g : Governor) : Operation → SequenceLog
  | .evaluate bundle =>
    if g.accepts bundle then
      let kept := if g.sameSourceIncarnation bundle then log else log.forget
      { kept with remembered := bundle :: kept.remembered }
    else log
  | .restoreState state => if state.validate = .ok () then log.forget else log
  | .reset => log.forget
  | _ => log

def loggedStep (s : Governor × SequenceLog) (operation : Operation) : Governor × SequenceLog :=
  (s.1.step operation, s.2.after s.1 operation)

/-- The calls of a run, with the log of the evidence accepted before each. -/
def loggedCalls (config : GovernorConfig) (operations : List Operation) :
    List ((Governor × SequenceLog) × Operation) :=
  Foundation.calls loggedStep (create config, {}) operations

/-- What the state remembers of the log. -/
def remembers (s : Governor × SequenceLog) : Prop :=
  ∀ earlier ∈ s.2.remembered, earlier.boot.valid ∧ s.1.state.lastSequenceBoot = earlier.boot ∧
    ∀ klass, (earlier.stampFor klass).sequence ≤ s.1.state.lastSequence.get klass

variable {g : Governor} {bundle : EvidenceBundle}

theorem countedState_sequences (g : Governor) (bundle : EvidenceBundle) :
    (g.countedState bundle).lastSequence = (g.acceptEvidence bundle).lastSequence ∧
      (g.countedState bundle).lastSequenceBoot = (g.acceptEvidence bundle).lastSequenceBoot := by
  simp only [countedState]
  split_ifs <;> exact ⟨rfl, rfl⟩

/-- An accepted evaluation leaves the advanced sequences, whatever its exit. -/
theorem evaluate_sequences (h : g.accepts bundle) :
    (g.evaluate bundle).2.state.lastSequence = (g.acceptEvidence bundle).lastSequence ∧
      (g.evaluate bundle).2.state.lastSequenceBoot =
        (g.acceptEvidence bundle).lastSequenceBoot := by
  rw [← (countedState_sequences g bundle).1, ← (countedState_sequences g bundle).2]
  rcases evaluate_cases g bundle with ⟨hn, _⟩ | ⟨_, view, denial, _, _, he⟩ | ⟨_, _, he⟩
  · exact absurd h hn
  · rw [he]
    exact ⟨rfl, rfl⟩
  · rw [he]
    generalize g.effect bundle = effect
    cases effect with
    | noAction live => cases live <;> exact ⟨rfl, rfl⟩
    | _ => exact ⟨rfl, rfl⟩

theorem acceptEvidence_boot (g : Governor) (bundle : EvidenceBundle) :
    (g.acceptEvidence bundle).lastSequenceBoot = bundle.boot := by
  simp only [acceptEvidence]
  split_ifs with hs
  · exact hs.2.2
  · rfl

theorem acceptEvidence_sequence_ge (g : Governor) (bundle : EvidenceBundle)
    (klass : EvidenceClass) :
    (bundle.stampFor klass).sequence ≤ (g.acceptEvidence bundle).lastSequence.get klass ∧
      (g.referenceSequences bundle).get klass ≤
        (g.acceptEvidence bundle).lastSequence.get klass := by
  simp only [acceptEvidence, PerClass.get_ofFn]
  split_ifs with hgt
  · exact ⟨UInt64.le_refl _, UInt64.le_of_lt hgt⟩
  · exact ⟨UInt64.not_lt.mp hgt, UInt64.le_refl _⟩

theorem remembers_evaluate {log : SequenceLog} (h : remembers (g, log)) (bundle : EvidenceBundle) :
    remembers (loggedStep (g, log) (.evaluate bundle)) := by
  by_cases ha : g.accepts bundle
  · have hboot : bundle.boot.valid := by
      rw [(bindingGranted_of_accepts ha).boot]
      exact (bindingGranted_of_accepts ha).bound.2.1
    obtain ⟨hseq, hsrc⟩ := evaluate_sequences ha
    rw [acceptEvidence_boot] at hsrc
    intro earlier hmem
    simp only [loggedStep, SequenceLog.after, if_pos ha] at hmem
    rcases List.mem_cons.mp hmem with rfl | hold
    · refine ⟨hboot, hsrc, fun klass => ?_⟩
      show _ ≤ (g.evaluate earlier).2.state.lastSequence.get klass
      rw [hseq]
      exact (acceptEvidence_sequence_ge g earlier klass).1
    · by_cases hs : g.sameSourceIncarnation bundle
      · rw [if_pos hs] at hold
        obtain ⟨hv, hb, hle⟩ := h earlier hold
        refine ⟨hv, ?_, fun klass => ?_⟩
        · show (g.evaluate bundle).2.state.lastSequenceBoot = _
          rw [hsrc, ← hs.2.2]
          exact hb
        · show _ ≤ (g.evaluate bundle).2.state.lastSequence.get klass
          rw [hseq]
          have href := (acceptEvidence_sequence_ge g bundle klass).2
          rw [referenceSequences, if_pos hs] at href
          exact UInt64.le_trans (hle klass) href
      · rw [if_neg hs] at hold
        simp [SequenceLog.forget] at hold
  · obtain ⟨decision, reason, detail, he⟩ := evaluate_refused ha
    intro earlier hmem
    simp only [loggedStep, SequenceLog.after, if_neg ha] at hmem
    have hold := h earlier hmem
    simp only [loggedStep, step, he]
    exact hold

theorem remembers.of_sequences_eq {before after : Governor} {log : SequenceLog}
    (h : remembers (before, log))
    (hs : after.state.lastSequence = before.state.lastSequence ∧
      after.state.lastSequenceBoot = before.state.lastSequenceBoot) : remembers (after, log) := by
  intro earlier hmem
  simp only [hs.1, hs.2]
  exact h earlier hmem

/-- The state remembers its log throughout a run. -/
theorem remembers_step (s : Governor × SequenceLog) (operation : Operation) (h : remembers s) :
    remembers (loggedStep s operation) := by
  obtain ⟨g, log⟩ := s
  have hevaluate := remembers_evaluate h
  have hby := step_by g operation
  unfold loggedStep at hevaluate ⊢
  show remembers (g.step operation, log.after g operation)
  generalize g.step operation = after at hby ⊢
  cases hby with
  | evaluated bundle => exact hevaluate bundle
  | restoreRefused error he => simpa [remembers, SequenceLog.after, he] using h
  | restored hv => simp [remembers, SequenceLog.after, hv, SequenceLog.forget]
  | reset => simp [remembers, SequenceLog.after, SequenceLog.forget]
  | _ => exact h

/-! ### Sound authority -/

/-- A class stands behind a decision: present, observed in the past, within its validity
and freshness horizons, of this window, and newer than everything accepted before from
this incarnation. -/
structure ClassSound (s : Governor × SequenceLog) (bundle : EvidenceBundle)
    (klass : EvidenceClass) : Prop where
  present : (bundle.stampFor klass).state = .present
  notFuture : (bundle.stampFor klass).observedAt ≤ bundle.now
  inValidity : (bundle.stampFor klass).validUntil.valid →
    bundle.now ≤ (bundle.stampFor klass).validUntil
  fresh : s.1.config.policy.authority.maxFreshnessHorizonNanos > 0 →
    bundle.now.nanos.toInt - (bundle.stampFor klass).observedAt.nanos.toInt ≤
      s.1.config.policy.authority.maxFreshnessHorizonNanos.toNat
  window : (bundle.stampFor klass).window.valid → (bundle.stampFor klass).window = bundle.window
  newer : (bundle.stampFor klass).sequence ≠ 0 →
    ∀ earlier ∈ s.2.remembered ++ s.2.forgotten, earlier.boot = bundle.boot →
      (earlier.stampFor klass).sequence < (bundle.stampFor klass).sequence

/-- The record a decision names is in the table under the bound epoch and boot, and it
was live before or was created by the call. -/
def namesBoundRecord (g : Governor) (bundle : EvidenceBundle) : Prop :=
  ∃ record ∈ (g.evaluate bundle).2.state.interventions,
    record.id = (g.evaluate bundle).1.intervention ∧ record.epoch = g.config.epoch ∧
      record.boot = g.config.boot ∧
      ((∃ prior ∈ g.state.interventions, prior.live ∧ prior.id = record.id) ∨
        (g.evaluate bundle).2.state.interventions =
          trimInterventions (g.state.interventions ++ [record]))

/-- What stands behind an authorized decision. -/
structure AuthoritySound (s : Governor × SequenceLog) (bundle : EvidenceBundle) : Prop where
  accepting : s.1.accepting = true
  bound : s.1.config.epoch.valid ∧ s.1.config.boot.valid ∧ s.1.config.lease.valid
  epoch : bundle.epoch = s.1.config.epoch
  boot : bundle.boot = s.1.config.boot
  lease : bundle.lease = s.1.config.lease
  destination : s.1.config.destination.valid → bundle.destination = s.1.config.destination
  leaseExpiry : s.1.config.leaseExpiry.valid → bundle.now ≤ s.1.config.leaseExpiry
  required : ∀ klass, s.1.config.policy.authority.requiredClasses.get klass →
    ClassSound s bundle klass
  record : s.1.namesBoundRecord bundle

/-- The evidence of a bundle is in range: the age of each required class fits 63 bits or
the horizon covers it, and no required class replays a forgotten sequence. -/
def evidenceInRange (s : Governor × SequenceLog) (bundle : EvidenceBundle) : Prop :=
  ∀ klass ∈ EvidenceClass.all, s.1.config.policy.authority.requiredClasses.get klass →
    (bundle.now.nanos.toInt - (bundle.stampFor klass).observedAt.nanos.toInt < 2 ^ 63 ∨
      bundle.now.nanos.toInt - (bundle.stampFor klass).observedAt.nanos.toInt ≤
        s.1.config.policy.authority.maxFreshnessHorizonNanos.toNat) ∧
    ((bundle.stampFor klass).sequence ≠ 0 → ∀ earlier ∈ s.2.forgotten,
      earlier.boot = bundle.boot →
        (earlier.stampFor klass).sequence < (bundle.stampFor klass).sequence)

instance (s : Governor × SequenceLog) (bundle : EvidenceBundle) :
    Decidable (evidenceInRange s bundle) := by
  delta evidenceInRange; infer_instance

/-- An accepted bundle is newer than every remembered one of its incarnation. -/
theorem newer_of_remembered {log : SequenceLog} (hrem : remembers (g, log))
    {klass : EvidenceClass}
    (hnew : (bundle.stampFor klass).sequence ≠ 0 → (g.referenceSequences bundle).get klass ≠ 0 →
      ¬(bundle.stampFor klass).sequence ≤ (g.referenceSequences bundle).get klass)
    (hs : (bundle.stampFor klass).sequence ≠ 0) {earlier : EvidenceBundle}
    (hmem : earlier ∈ log.remembered) (hboot : earlier.boot = bundle.boot) :
    (earlier.stampFor klass).sequence < (bundle.stampFor klass).sequence := by
  obtain ⟨hv, hb, hle⟩ := hrem earlier hmem
  have hsame : g.sameSourceIncarnation bundle := by
    refine ⟨?_, ?_, ?_⟩
    · show g.state.lastSequenceBoot.valid
      rw [hb]
      exact hv
    · rw [← hboot]
      exact hv
    · rw [← hboot]
      exact hb
  rw [referenceSequences, if_pos hsame] at hnew
  have hk := hle klass
  by_cases hzero : g.state.lastSequence.get klass = 0
  · rw [hzero] at hk
    have he : (earlier.stampFor klass).sequence = 0 :=
      UInt64.le_antisymm hk UInt64.zero_le
    rw [he]
    exact UInt64.pos_iff_ne_zero.mpr hs
  · exact UInt64.lt_of_le_of_lt hk (UInt64.not_le.mp (hnew hs hzero))

theorem classSound_of_accepts {log : SequenceLog} (h : g.accepts bundle)
    (hrem : remembers (g, log)) (hrange : evidenceInRange (g, log) bundle) {klass : EvidenceClass}
    (hreq : g.config.policy.authority.requiredClasses.get klass) :
    ClassSound (g, log) bundle klass := by
  have hp := assessStamp_present ((authorityGranted_of_accepts h).required klass hreq)
  have hstruct := (bindingGranted_of_accepts h).structural
  have hnow := hstruct.2.2.2.1
  obtain ⟨hage, hforgot⟩ := hrange klass klass.mem_all hreq
  have hpast : (bundle.stampFor klass).observedAt.nanos ≤ bundle.now.nanos :=
    Int64.not_lt.mp (hp.notFuture hnow)
  refine ⟨hp.state, hpast, fun hv => Int64.not_lt.mp (hp.inValidity hv hnow), fun hz => ?_,
    fun hw => hp.window hw hstruct.2.1, fun hs earlier hmem hboot => ?_⟩
  · rcases hage with hfits | hcovered
    · exact age_le_of_fresh (Int64.le_iff_toInt_le.mp hpast) (hp.fresh hz hnow) hfits
    · exact hcovered
  · rcases List.mem_append.mp hmem with hr | hf
    · exact newer_of_remembered hrem hp.newer hs hr hboot
    · exact hforgot hs earlier hf hboot

/-! ### The record a decision names -/

/-- A record put at the live position of a bounded table is one a decision may name. -/
theorem namesBoundRecord_of_put (hinv : tableBounded g) (h : g.accepts bundle)
    (hf : g.liveFence bundle = none) {view : LiveView} (hv : g.liveView = some view)
    {record : Intervention} (hb : sameBinding record view.live)
    (htable : (g.evaluate bundle).2.state.interventions = trimInterventions (g.putLive record))
    (hid : (g.evaluate bundle).1.intervention = record.id) : g.namesBoundRecord bundle := by
  rw [trim_putLive hinv hv] at htable
  obtain ⟨hepoch, hboot⟩ := live_bound h hv hf
  have hsplit := liveView_splits hv
  refine ⟨record, ?_, hid.symm, hb.2.1.trans hepoch, hb.2.2.trans hboot, Or.inl ⟨view.live, ?_,
    hsplit.live, hb.1.symm⟩⟩
  · rw [htable]
    exact LiveView.mem_put view record
  · rw [hsplit.table]
    exact LiveView.mem_put view view.live

theorem namesBoundRecord_of_authorized (hinv : tableBounded g)
    (ha : (g.evaluate bundle).1.authorized) : g.namesBoundRecord bundle := by
  obtain ⟨h, hf, hauth⟩ := authorized_iff.mp ha
  have he := evaluate_committed h hf
  have htable : ∀ record, (g.effectState bundle (g.effect bundle)).interventions = g.putLive record →
      (g.evaluate bundle).2.state.interventions = trimInterventions (g.putLive record) := by
    intro record hstate
    rw [he, commit_interventions, hstate]
  have hid : ∀ record : Intervention,
      (g.effectDecision bundle (g.effect bundle)).intervention = record.id →
      (g.evaluate bundle).1.intervention = record.id := by
    intro record hd
    rw [he, commit_intervention, hd]
  have hby := effect_by g bundle
  generalize heff : g.effect bundle = effect at hby hauth htable hid
  cases hby with
  | hold live hl _ =>
    obtain ⟨view, hv, rfl⟩ := view_of_liveRecord hf hl
    exact namesBoundRecord_of_put hinv h hf hv (heldRecord_binding _ _)
      (htable _ (effectState_interventions g bundle _)) (hid _ rfl)
  | carryOn live hl _ _ =>
    obtain ⟨view, hv, rfl⟩ := view_of_liveRecord hf hl
    exact namesBoundRecord_of_put hinv h hf hv (continuedRecord_binding _ _ _)
      (htable _ (effectState_interventions g bundle _)) (hid _ rfl)
  | recover live hl _ _ _ =>
    obtain ⟨view, hv, rfl⟩ := view_of_liveRecord hf hl
    exact namesBoundRecord_of_put hinv h hf hv (recoveredRecord_binding _ _ _)
      (htable _ (effectState_interventions g bundle _)) (hid _ rfl)
  | relax live hl _ _ _ =>
    obtain ⟨view, hv, rfl⟩ := view_of_liveRecord hf hl
    exact namesBoundRecord_of_put hinv h hf hv (relaxedRecord_binding _ _ _)
      (htable _ (effectState_interventions g bundle _)) (hid _ rfl)
  | issue hl _ =>
    obtain ⟨hepoch, hboot, hstate⟩ := createdRecord_binding bundle g.config.policy
      (g.instant bundle) (g.synthesis bundle).intent
    have hbound := bindingGranted_of_accepts h
    have hcreated : (g.evaluate bundle).2.state.interventions =
        trimInterventions (g.state.interventions ++
          [createdRecord bundle g.config.policy (g.instant bundle) (g.synthesis bundle).intent]) := by
      rw [he, heff, commit_interventions, effectState_interventions]
    refine ⟨_, ?_, (hid _ rfl).symm, hepoch.trans hbound.epoch, hboot.trans hbound.boot,
      Or.inr hcreated⟩
    rw [hcreated]
    apply mem_trimInterventions_of_live (by simp)
    simp [Intervention.live, InterventionState.live, hstate]
  | retireUnfounded live _ _ _ _ => exact hauth.elim
  | keep live _ _ _ _ => exact hauth.elim
  | idle _ _ => exact hauth.elim

/-! ### Runs -/

theorem loggedCalls_invariant {config : GovernorConfig} {operations : List Operation}
    {call : (Governor × SequenceLog) × Operation} (h : call ∈ loggedCalls config operations) :
    tableBounded call.1.1 ∧ remembers call.1 :=
  Foundation.calls_invariant
    (P := fun s : Governor × SequenceLog => tableBounded s.1 ∧ remembers s)
    (fun s operation hs => ⟨tableBounded_step s.1 operation hs.1, remembers_step s operation hs.2⟩)
    ⟨tableBounded_create config, by simp [remembers]⟩ h

/-- Every authorized decision of a run is sound. -/
def runAuthoritySound (config : GovernorConfig) (operations : List Operation) : Prop :=
  ∀ call ∈ loggedCalls config operations, ∀ bundle, call.2 = .evaluate bundle →
    (call.1.1.evaluate bundle).1.authorized → AuthoritySound call.1 bundle

/-- In every run whose accepted evidence is in range, every authorized decision is sound. -/
theorem run_authority_sound (config : GovernorConfig) (operations : List Operation)
    (hrange : ∀ call ∈ loggedCalls config operations, ∀ bundle, call.2 = .evaluate bundle →
      call.1.1.accepts bundle → evidenceInRange call.1 bundle) :
    runAuthoritySound config operations := by
  rintro ⟨⟨g, log⟩, operation⟩ hcall bundle hop ha
  obtain ⟨hinv, hrem⟩ := loggedCalls_invariant hcall
  obtain ⟨h, hf, _⟩ := authorized_iff.mp ha
  have hb := bindingGranted_of_accepts h
  have hclasses := hrange _ hcall bundle hop h
  refine ⟨hb.accepting, hb.bound, hb.epoch, hb.boot, hb.lease, hb.destination, fun hv => ?_,
    fun klass hreq => classSound_of_accepts h hrem hclasses hreq,
    namesBoundRecord_of_authorized hinv ha⟩
  have hexp := hb.leaseExpiry hv
  rw [instant_of_structurallyValid hb.structural] at hexp
  exact Int64.not_lt.mp hexp

theorem run_authority_sound_incident :
    runAuthoritySound sampleConfig [.evaluate incidentWindow] := by
  apply run_authority_sound sampleConfig [.evaluate incidentWindow]
  intro call hcall bundle hop _
  rw [loggedCalls, Foundation.calls_cons, Foundation.calls_nil, List.mem_singleton] at hcall
  rw [hcall] at hop ⊢
  rw [← Operation.evaluate.inj hop]
  decide +kernel

/-- An incident window whose fan-in evidence is older than signed nanoseconds can say. -/
def ancientWindow : EvidenceBundle :=
  { incidentWindow with
    fanInStamp := { incidentWindow.fanInStamp with observedAt := ⟨-9223372036854775000⟩ } }

/-- The wrapped age of the ancient evidence passes the freshness horizon, and the
decision is authorized. -/
theorem ancient_evidence_is_authorized :
    ¬runAuthoritySound sampleConfig [.evaluate ancientWindow] := by
  intro h
  have hauth : ((create sampleConfig).evaluate ancientWindow).1.authorized := by decide +kernel
  have hsound := h ((create sampleConfig, {}), .evaluate ancientWindow)
    (List.mem_singleton.mpr rfl) ancientWindow rfl hauth
  have hfresh := (hsound.required .fanIn rfl).fresh (by decide)
  exact absurd hfresh (by decide +kernel)

end Governor

end IncastGovernor
