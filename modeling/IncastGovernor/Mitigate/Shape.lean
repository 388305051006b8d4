import IncastGovernor.Mitigate.Sizing

/-! The shape of an intent: who is penalized, in which scope, by which magnitude and of which
classes. An action without effect is turned into an escalation of the destination, and keeps the
list and the share it was sized with; a clamp that shortens the list keeps the classes. -/

namespace IncastGovernor

/-! ### Affected classes -/

theorem affectedClasses_foldl (selected : List SenderContribution) (classes : List ServiceClass)
    (h : classes.Nodup) :
    let result := selected.foldl (fun classes c =>
      if c.service ∈ classes then classes else classes ++ [c.service]) classes
    result.Nodup ∧ ∀ klass, klass ∈ result ↔ klass ∈ classes ∨ klass ∈ selected.map fun c => c.service := by
  induction selected generalizing classes with
  | nil => simpa using h
  | cons c rest ih =>
    have hnext : (if c.service ∈ classes then classes else classes ++ [c.service]).Nodup ∧
        ∀ klass, klass ∈ (if c.service ∈ classes then classes else classes ++ [c.service]) ↔
          klass ∈ classes ∨ klass = c.service := by
      split_ifs with hm
      · exact ⟨h, fun klass => ⟨Or.inl, fun hk => hk.elim id fun he => he ▸ hm⟩⟩
      · refine ⟨List.nodup_append.mpr ⟨h, List.nodup_singleton _, fun a ha b hb heq => ?_⟩, by simp⟩
        exact hm (List.mem_singleton.mp hb ▸ heq ▸ ha)
    obtain ⟨hnodup, hmem⟩ := ih _ hnext.1
    refine ⟨hnodup, fun klass => (hmem klass).trans ?_⟩
    rw [hnext.2, List.map_cons, List.mem_cons, or_assoc]

/-- The service classes of a selection are all different. -/
theorem affectedClasses_nodup (selected : List SenderContribution) :
    (affectedClasses selected).Nodup :=
  (affectedClasses_foldl selected [] List.nodup_nil).1

theorem mem_affectedClasses {selected : List SenderContribution} {klass : ServiceClass} :
    klass ∈ affectedClasses selected ↔ klass ∈ selected.map fun c => c.service := by
  have h := (affectedClasses_foldl selected [] List.nodup_nil).2 klass
  simp only [List.not_mem_nil, false_or] at h
  exact h

/-! ### Shapes -/

/-- The list, the scope, the magnitudes and the classes of an intent fit together, for the
contributions it was made from. -/
structure MitigationIntent.Shaped (intent : MitigationIntent) (chosen : List SenderContribution) :
    Prop where
  senders : intent.penalizedSenders = chosen.map fun c => c.identity
  classes : ∀ klass, klass ∈ intent.affectedClasses ↔ klass ∈ chosen.map fun c => c.service
  scope_iff : intent.penalizedSenders ≠ [] ↔ intent.scope = .senderSet
  reduction : intent.reductionBp.value > 0 →
    intent.scope = .senderSet ∧ intent.penalizedSenders ≠ []
  admission : intent.admissionReductionBp.value > 0 → intent.scope = .destination
  escalation : intent.kind = .congestionEscalation →
    intent.penalizedSenders = [] ∧ intent.reductionBp.value = 0 ∧
      intent.admissionReductionBp.value = 0

/-- The share of the aggregate offer an admission cut is clamped to. -/
def admissionShare (policy : GovernorPolicy) (classification : Classification) : ℕ :=
  let most := policy.bounds.maxAdmissionReductionBp.toNat
  max (min policy.bounds.minReductionBp.toNat most)
    (min (cappedScale (requiredReduction policy classification).toNat /
      classification.metrics.aggregateOffered.bytesPerSecond.toNat) most)

/-- The action of an incident takes at least one byte per second, or nothing is asked of it. -/
def actionTakes (policy : GovernorPolicy) (classification : Classification) : Prop :=
  requiredReduction policy classification = 0 ∨
    if senderScoped policy classification then
      10000 ≤ (mitigableOffer (selectedContributions policy classification)).toNat *
        max policy.bounds.minReductionBp.toNat policy.bounds.maxReductionBp.toNat
    else
      admissionShare policy classification = 0 ∨
        10000 ≤ classification.metrics.aggregateOffered.bytesPerSecond.toNat *
          admissionShare policy classification

instance (policy : GovernorPolicy) (classification : Classification) :
    Decidable (actionTakes policy classification) := by
  unfold actionTakes
  infer_instance

/-! ### The shape of an action -/

section Action

variable {request : SynthesisRequest} {bundle : EvidenceBundle} {policy : GovernorPolicy}
  {classification : Classification} {action : SizedAction}

theorem clampBp_toNat_max (value : UInt64) (low high : UInt32) :
    (clampBp value low high).toNat =
      max low.toNat (min value.toNat (max low.toNat high.toNat)) := by
  by_cases h : low ≤ high
  · have hle := UInt32.le_iff_toNat_le.mp h
    rw [clampBp_toNat value h, max_eq_right hle]
  · have hlt := UInt32.not_le.mp h
    have hle := UInt32.lt_iff_toNat_lt.mp hlt
    have hsame : clampBp value low high = clampBp value low low := by
      simp only [clampBp, if_pos hlt, UInt32.lt_irrefl, if_false]
    rw [hsame, clampBp_toNat value (UInt32.le_refl low), max_eq_left hle.le]

theorem applyBp_eq_zero_iff (amount : UInt64) (share : UInt32) :
    applyBp amount share = 0 ↔ amount.toNat * share.toNat < 10000 := by
  rw [← UInt64.toNat_inj, applyBp_toNat, UInt64.toNat_zero]
  unfold shareOf
  omega

/-- The action is turned into an escalation of the destination. -/
def escalated (policy : GovernorPolicy) (classification : Classification) (action : SizedAction) :
    Prop :=
  residualDemand (requiredReduction policy classification) action.achievable > 0 ∧
    action.achievable = 0

theorem escalated_iff :
    escalated policy classification action ↔
      requiredReduction policy classification ≠ 0 ∧ action.achievable = 0 := by
  unfold escalated
  refine and_congr_left fun hzero => ?_
  rw [residualDemand_pos_iff, hzero, UInt64.pos_iff_ne_zero]

theorem actionIntent_of_escalated (h : escalated policy classification action) :
    (actionIntent request bundle policy classification action).scope = .destination ∧
      (actionIntent request bundle policy classification action).kind = .congestionEscalation := by
  simp only [actionIntent, finishIntent, MitigationIntent.clampToBounds_kind,
    MitigationIntent.clampToBounds_scope, if_pos h.1, escalate, if_pos h.2, and_self]

theorem actionIntent_of_not_escalated (h : ¬escalated policy classification action) :
    (actionIntent request bundle policy classification action).scope = action.scope ∧
      (actionIntent request bundle policy classification action).kind = action.kind := by
  simp only [actionIntent, finishIntent, MitigationIntent.clampToBounds_kind,
    MitigationIntent.clampToBounds_scope]
  by_cases hr : residualDemand (requiredReduction policy classification) action.achievable > 0
  · have ha : action.achievable ≠ 0 := fun ha => h ⟨hr, ha⟩
    simp only [if_pos hr, escalate, if_neg ha, sizedIntent, and_self]
  · simp only [if_neg hr, sizedIntent, and_self]

theorem actionIntent_affectedClasses :
    (actionIntent request bundle policy classification action).affectedClasses =
      action.affectedClasses := by
  simp only [actionIntent, finishIntent, MitigationIntent.clampToBounds]
  split_ifs <;> rfl

theorem actionIntent_reductionBp_zero (h : action.reductionBp = 0) :
    (actionIntent request bundle policy classification action).reductionBp.value = 0 := by
  rw [← UInt32.toNat_inj, actionIntent_reductionBp, h, UInt32.toNat_zero]
  omega

theorem actionIntent_admissionBp_zero_iff
    (h : action.admissionBp ≤ policy.bounds.maxAdmissionReductionBp) :
    (actionIntent request bundle policy classification action).admissionReductionBp.value = 0 ↔
      action.admissionBp = 0 := by
  rw [UInt32.le_iff_toNat_le] at h
  rw [← UInt32.toNat_inj, ← UInt32.toNat_inj, actionIntent_admissionReductionBp, UInt32.toNat_zero]
  omega

/-! ### The three actions -/

theorem senderReductionBp_toNat (bounds : MitigationBounds) (required : UInt64) {offer : UInt64}
    (h : 0 < offer.toNat) :
    (senderReductionBp bounds required offer).toNat =
      max bounds.minReductionBp.toNat (min (cappedScale required.toNat ⌈/⌉ offer.toNat)
        (max bounds.minReductionBp.toNat bounds.maxReductionBp.toNat)) := by
  simp only [senderReductionBp]
  rw [clampBp_toNat_max, ceilDiv_toNat _ h, scaled_toNat]

theorem admissionReductionBp_toNat (bounds : MitigationBounds) (required : UInt64)
    {aggregate : UInt64} (h : 0 < aggregate.toNat) :
    (admissionReductionBp bounds required aggregate).toNat =
      max (min bounds.minReductionBp.toNat bounds.maxAdmissionReductionBp.toNat)
        (min (cappedScale required.toNat / aggregate.toNat)
          bounds.maxAdmissionReductionBp.toNat) := by
  have hne : aggregate ≠ 0 := fun hz => by simp [hz] at h
  have hrange : min bounds.minReductionBp.toNat bounds.maxAdmissionReductionBp.toNat ≤
      bounds.maxAdmissionReductionBp.toNat := min_le_right _ _
  simp only [admissionReductionBp, if_neg hne]
  rw [clampBp_toNat_max, UInt64.toNat_div, scaled_toNat, min_toNat, max_eq_right hrange]

/-- A sender-scoped action takes something exactly when its largest share does: the wanted share is
rounded up, so it covers a requirement it is not clamped below. -/
theorem senderAction_takes_iff {kind : IncidentKind} {metrics : FanInMetrics} {required : UInt64}
    {selected : List SenderContribution} (hreq : required ≠ 0) (ho : mitigableOffer selected > 0) :
    (senderAction policy kind metrics required selected).achievable ≠ 0 ↔
      10000 ≤ (mitigableOffer selected).toNat *
        max policy.bounds.minReductionBp.toNat policy.bounds.maxReductionBp.toNat := by
  have hoffer : 0 < (mitigableOffer selected).toNat := UInt64.lt_iff_toNat_lt.mp ho
  have hshare := senderReductionBp_toNat policy.bounds required hoffer
  have hwanted : 10000 ≤ (mitigableOffer selected).toNat *
      (cappedScale required.toNat ⌈/⌉ (mitigableOffer selected).toNat) := by
    have hpos : required.toNat ≠ 0 := fun h => hreq (UInt64.toNat_inj.mp h)
    have hscaled : 10000 ≤ cappedScale required.toNat := by
      unfold cappedScale
      omega
    exact hscaled.trans (le_smul_ceilDiv hoffer)
  change applyBp _ _ ≠ 0 ↔ _
  rw [ne_eq, applyBp_eq_zero_iff, Nat.not_lt, hshare]
  constructor
  · intro h
    refine h.trans (Nat.mul_le_mul_left _ ?_)
    exact max_le (le_max_left _ _) (min_le_right _ _)
  · intro h
    rcases le_total (cappedScale required.toNat ⌈/⌉ (mitigableOffer selected).toNat)
      (max policy.bounds.minReductionBp.toNat policy.bounds.maxReductionBp.toNat) with hle | hle
    · rw [min_eq_left hle]
      exact hwanted.trans (Nat.mul_le_mul_left _ (le_max_right _ _))
    · rw [min_eq_right hle]
      exact h.trans (Nat.mul_le_mul_left _ (le_max_right _ _))

theorem admissionAction_takes_iff (hreq : requiredReduction policy classification ≠ 0)
    (allowed : Bool) :
    (admissionAction policy classification.metrics (requiredReduction policy classification)
        allowed).admissionBp.toNat = admissionShare policy classification ∧
      ((admissionAction policy classification.metrics (requiredReduction policy classification)
          allowed).achievable ≠ 0 ↔
        10000 ≤ classification.metrics.aggregateOffered.bytesPerSecond.toNat *
          admissionShare policy classification) := by
  have hshare : (admissionReductionBp policy.bounds (requiredReduction policy classification)
      classification.metrics.aggregateOffered.bytesPerSecond).toNat =
        admissionShare policy classification :=
    admissionReductionBp_toNat policy.bounds _ (aggregate_pos hreq)
  refine ⟨hshare, ?_⟩
  change applyBp _ _ ≠ 0 ↔ _
  rw [ne_eq, applyBp_eq_zero_iff, Nat.not_lt, ← hshare]

theorem admissionAction_le (allowed : Bool) :
    (admissionAction policy classification.metrics (requiredReduction policy classification)
      allowed).admissionBp ≤ policy.bounds.maxAdmissionReductionBp := by
  change admissionReductionBp _ _ _ ≤ _
  rw [UInt32.le_iff_toNat_le, admissionReductionBp, clampBp_toNat_max, min_toNat]
  omega

/-- An intent that penalizes nobody. -/
theorem MitigationIntent.shaped_nil {intent : MitigationIntent} (hsenders : intent.penalizedSenders = [])
    (hclasses : intent.affectedClasses = []) (hscope : intent.scope ≠ .senderSet)
    (hreduction : intent.reductionBp.value = 0)
    (hadmission : intent.admissionReductionBp.value > 0 → intent.scope = .destination)
    (hkind : intent.kind = .congestionEscalation → intent.admissionReductionBp.value = 0) :
    intent.Shaped [] where
  senders := hsenders
  classes := by simp [hclasses]
  scope_iff := iff_of_false (not_not.mpr hsenders) hscope
  reduction h := by
    rw [hreduction] at h
    exact absurd h (UInt32.lt_irrefl _)
  admission := hadmission
  escalation h := ⟨hsenders, hreduction, hkind h⟩

theorem structural_shaped (hs : sizeAction policy classification = some action)
    (hreq : requiredReduction policy classification = 0) :
    (actionIntent request bundle policy classification action).Shaped [] := by
  have hnot : ¬escalated policy classification action := fun h => (escalated_iff.mp h).1 hreq
  obtain ⟨hscope, hkind⟩ :=
    @actionIntent_of_not_escalated request bundle policy classification action hnot
  have hsenders := @actionIntent_penalizedSenders request bundle policy classification action hs
  obtain rfl := eq_structuralAction hreq hs
  have hadmission := (@actionIntent_admissionBp_zero_iff request bundle policy classification
    (structuralAction policy classification.metrics) UInt32.zero_le).mpr rfl
  refine MitigationIntent.shaped_nil hsenders actionIntent_affectedClasses ?_
    (actionIntent_reductionBp_zero rfl) (fun h => ?_) fun _ => hadmission
  · rw [hscope]
    exact fun h => (by cases h)
  · rw [hadmission] at h
    exact absurd h (UInt32.lt_irrefl _)

theorem selectedContributions_sublist (policy : GovernorPolicy) (classification : Classification) :
    (selectedContributions policy classification).Sublist classification.contributions := by
  unfold selectedContributions
  split_ifs
  · exact (List.take_sublist _ _).trans List.filter_sublist
  · exact List.nil_sublist _

theorem selected_ne_nil (hscoped : senderScoped policy classification) :
    selectedContributions policy classification ≠ [] := by
  intro hnil
  have hpos := mitigableOffer_pos hscoped
  rw [hnil] at hpos
  exact absurd hpos (Nat.lt_irrefl _)

theorem sender_shaped_iff (hs : sizeAction policy classification = some action)
    (hreq : requiredReduction policy classification ≠ 0)
    (hscoped : senderScoped policy classification) :
    (∃ chosen, chosen.Sublist classification.contributions ∧
        (actionIntent request bundle policy classification action).Shaped chosen) ↔
      actionTakes policy classification := by
  have hsenders := @actionIntent_penalizedSenders request bundle policy classification action hs
  have hne : (actionIntent request bundle policy classification action).penalizedSenders ≠ [] := by
    rw [hsenders, sizeAction_penalizedSenders hs, if_pos ⟨hreq, hscoped.2⟩]
    exact mt List.map_eq_nil_iff.mp (selected_ne_nil hscoped)
  obtain rfl := Option.some.inj ((sizeAction_sender hreq hscoped).symm.trans hs)
  rw [actionTakes, or_iff_right hreq, if_pos hscoped,
    ← @senderAction_takes_iff policy classification.kind classification.metrics _ _ hreq hscoped.2]
  constructor
  · rintro ⟨chosen, -, hshape⟩ hzero
    have hscope := hshape.scope_iff.mp hne
    rw [(actionIntent_of_escalated (escalated_iff.mpr ⟨hreq, hzero⟩)).1] at hscope
    cases hscope
  · intro htakes
    obtain ⟨hscope, hkind⟩ := @actionIntent_of_not_escalated request bundle policy classification _
      (fun h => htakes (escalated_iff.mp h).2)
    have hadmission := (@actionIntent_admissionBp_zero_iff request bundle policy classification
      (senderAction policy classification.kind classification.metrics
        (requiredReduction policy classification)
        (selectedContributions policy classification)) UInt32.zero_le).mpr rfl
    refine ⟨_, selectedContributions_sublist policy classification, ⟨hsenders, fun klass => ?_,
      iff_of_true hne hscope, fun _ => ⟨hscope, hne⟩, fun h => ?_, fun h => ?_⟩⟩
    · rw [actionIntent_affectedClasses]
      exact mem_affectedClasses
    · rw [hadmission] at h
      exact absurd h (UInt32.lt_irrefl _)
    · rw [hkind] at h
      simp only [senderAction] at h
      split_ifs at h

theorem admission_shaped_iff (hs : sizeAction policy classification = some action)
    (hreq : requiredReduction policy classification ≠ 0)
    (hscoped : ¬senderScoped policy classification) :
    (∃ chosen, chosen.Sublist classification.contributions ∧
        (actionIntent request bundle policy classification action).Shaped chosen) ↔
      actionTakes policy classification := by
  have hsenders := @actionIntent_penalizedSenders request bundle policy classification action hs
  obtain rfl := Option.some.inj ((sizeAction_destination hreq hscoped).symm.trans hs)
  obtain ⟨hshare, htakes⟩ := @admissionAction_takes_iff policy classification hreq
    (decide (senderScopeAllowed policy classification))
  have hzero := @actionIntent_admissionBp_zero_iff request bundle policy classification _
    (@admissionAction_le policy classification (decide (senderScopeAllowed policy classification)))
  rw [actionTakes, or_iff_right hreq, if_neg hscoped, ← htakes, ← hshare, ← UInt32.toNat_zero,
    UInt32.toNat_inj]
  by_cases hnone : (admissionAction policy classification.metrics
      (requiredReduction policy classification)
      (decide (senderScopeAllowed policy classification))).achievable = 0
  · obtain ⟨hscope, hkind⟩ := @actionIntent_of_escalated request bundle policy classification _
      (escalated_iff.mpr ⟨hreq, hnone⟩)
    rw [or_iff_left (not_not.mpr hnone), ← hzero]
    constructor
    · rintro ⟨chosen, -, hshape⟩
      exact (hshape.escalation hkind).2.2
    · intro hadmission
      refine ⟨[], List.nil_sublist _, MitigationIntent.shaped_nil hsenders
        actionIntent_affectedClasses ?_ (actionIntent_reductionBp_zero rfl) (fun _ => hscope)
          fun _ => hadmission⟩
      rw [hscope]
      exact fun h => (by cases h)
  · obtain ⟨hscope, hkind⟩ := @actionIntent_of_not_escalated request bundle policy classification _
      (fun h => hnone (escalated_iff.mp h).2)
    refine iff_of_true ⟨[], List.nil_sublist _, MitigationIntent.shaped_nil hsenders
      actionIntent_affectedClasses ?_ (actionIntent_reductionBp_zero rfl) (fun _ => hscope)
        fun h => ?_⟩ (Or.inr hnone)
    · rw [hscope]
      exact fun h => (by cases h)
    · rw [hkind] at h
      cases h

/-- An intent made from an action fits together exactly when the action takes something or nothing
is asked of it. -/
theorem actionIntent_shaped_iff (hs : sizeAction policy classification = some action) :
    (∃ chosen, chosen.Sublist classification.contributions ∧
        (actionIntent request bundle policy classification action).Shaped chosen) ↔
      actionTakes policy classification := by
  by_cases hreq : requiredReduction policy classification = 0
  · exact iff_of_true ⟨[], List.nil_sublist _, structural_shaped hs hreq⟩ (Or.inl hreq)
  · by_cases hscoped : senderScoped policy classification
    · exact sender_shaped_iff hs hreq hscoped
    · exact admission_shaped_iff hs hreq hscoped

end Action

/-! ### The shape of a recovery step -/

section Recovery

variable {bounds : MitigationBounds} {issued : Timestamp} {step : UInt32} {prior : MitigationIntent}
  {chosen : List SenderContribution}

theorem retiredIntent_shaped : (retiredIntent bounds issued prior).Shaped [] := by
  refine MitigationIntent.shaped_nil rfl rfl (fun h => (by cases h)) rfl (fun h => ?_) fun _ => rfl
  exact absurd h (UInt32.lt_irrefl _)

/-- The classes of the penalized senders survive the cut of the list. -/
def keepsClasses (bounds : MitigationBounds) (chosen : List SenderContribution) : Prop :=
  ∀ klass ∈ chosen.map fun c => c.service,
    klass ∈ (chosen.take bounds.maxPenalizedSenders.toNat).map fun c => c.service

instance (bounds : MitigationBounds) (chosen : List SenderContribution) :
    Decidable (keepsClasses bounds chosen) := by
  delta keepsClasses; infer_instance

theorem take_ne_nil_of_keepsClasses (hk : keepsClasses bounds chosen) (hne : chosen ≠ []) :
    chosen.take bounds.maxPenalizedSenders.toNat ≠ [] := by
  intro hnil
  obtain ⟨c, hmem⟩ := List.exists_mem_of_ne_nil _ hne
  have hclass := hk c.service (List.mem_map_of_mem hmem)
  rw [hnil] at hclass
  cases hclass

theorem MitigationIntent.Shaped.admission_zero {intent : MitigationIntent}
    (h : intent.Shaped chosen) (hscope : intent.scope = .senderSet) :
    intent.admissionReductionBp.value = 0 := by
  by_contra hne
  have hdestination := h.admission (UInt32.pos_iff_ne_zero.mpr hne)
  rw [hscope] at hdestination
  cases hdestination

theorem relaxedIntent_shaped_iff (hshape : prior.Shaped chosen)
    (hc : ¬recoveryCompletes bounds step prior) :
    (relaxedIntent bounds issued step prior).Shaped
        (chosen.take (relaxedIntent bounds issued step prior).penalizedSenders.length) ↔
      keepsClasses bounds chosen := by
  have hpos : prior.reductionBp.value > 0 :=
    UInt32.lt_of_le_of_lt UInt32.zero_le (UInt32.not_le.mp (not_or.mp hc).1)
  obtain ⟨hscope, hne⟩ := hshape.reduction hpos
  have hsenders : (relaxedIntent bounds issued step prior).penalizedSenders =
      (chosen.take bounds.maxPenalizedSenders.toNat).map fun c => c.identity := by
    rw [relaxedIntent_penalizedSenders, hshape.senders, List.map_take]
  have hchosen : chosen.take (relaxedIntent bounds issued step prior).penalizedSenders.length =
      chosen.take bounds.maxPenalizedSenders.toNat := by
    rw [hsenders, List.length_map, List.length_take, ← List.take_eq_take_min]
  have hadmission : (relaxedIntent bounds issued step prior).admissionReductionBp.value = 0 := by
    have hle : (relaxedIntent bounds issued step prior).admissionReductionBp.value.toNat ≤
        prior.admissionReductionBp.value.toNat :=
      (MitigationIntent.clampToBounds_admissionReductionBp _ _).trans_le (min_le_left _ _)
    rw [hshape.admission_zero hscope] at hle
    exact UInt32.toNat_inj.mp (Nat.le_zero.mp hle)
  rw [hchosen]
  constructor
  · exact fun h klass hk => (h.classes klass).mp ((hshape.classes klass).mpr hk)
  · intro hk
    have hkept : (relaxedIntent bounds issued step prior).penalizedSenders ≠ [] := by
      rw [hshape.senders] at hne
      rw [hsenders, ne_eq, List.map_eq_nil_iff]
      exact take_ne_nil_of_keepsClasses hk (mt List.map_eq_nil_iff.mpr hne)
    refine ⟨hsenders, fun klass => ?_, iff_of_true hkept hscope, fun _ => ⟨hscope, hkept⟩,
      fun h => ?_, fun h => absurd (hshape.escalation h).1 hne⟩
    · refine (hshape.classes klass).trans ⟨hk klass, fun h => ?_⟩
      exact ((List.take_sublist _ _).map _).subset h
    · rw [hadmission] at h
      exact absurd h (UInt32.lt_irrefl _)

end Recovery

/-! ### The shape of a result -/

section Result

variable {request : SynthesisRequest} {bundle : EvidenceBundle} {policy : GovernorPolicy}
  {classification : Classification}

theorem synthesize_authorized (hb : request.bundle = some bundle)
    (hp : request.policy = some policy) (hc : request.classification = some classification)
    (ha : (synthesize request).authority.interventionAuthorized = true) :
    request.check.reason = .none ∧ policy.enabled = true ∧
      (classification.kind.incident ∨ classification.kind = .recovery) := by
  rw [synthesize_complete hb hp hc] at ha
  by_contra hnot
  have hdenied : request.check.reason ≠ .none ∨ policy.enabled = false ∨
      (¬classification.kind.incident ∧ classification.kind ≠ .recovery) := by
    by_contra hall
    push Not at hall
    refine hnot ⟨hall.1, by simpa using hall.2.1, ?_⟩
    by_cases hi : classification.kind.incident
    · exact Or.inl hi
    · exact Or.inr (hall.2.2 hi)
  rw [(synthesizeWindow_unauthorized hdenied).1] at ha
  cases ha

/-- The list, scope, magnitudes and classes of an authorized intent fit together exactly when the
action of the incident takes something, and are kept by a recovery step exactly when it retires the
intent or the cut of the list spares every class. -/
theorem synthesize_shaped_iff (hb : request.bundle = some bundle)
    (hp : request.policy = some policy) (hc : request.classification = some classification)
    (ha : (synthesize request).authority.interventionAuthorized = true) :
    (classification.kind.incident →
      ((∃ chosen, chosen.Sublist classification.contributions ∧
          (synthesize request).intent.Shaped chosen) ↔
        actionTakes policy classification)) ∧
    (classification.kind = .recovery →
      ∀ prior chosen, request.prior = some prior → prior.Shaped chosen →
        ((synthesize request).intent.Shaped
            (chosen.take (synthesize request).intent.penalizedSenders.length) ↔
          recoveryCompletes policy.bounds (recoveryStep policy.bounds request.recoveryStepBp prior)
              prior ∨
            keepsClasses policy.bounds chosen)) := by
  obtain ⟨hcheck, henabled, -⟩ := synthesize_authorized hb hp hc ha
  rw [synthesize_complete hb hp hc] at ha ⊢
  constructor
  · intro hi
    rw [synthesizeWindow_incident hcheck henabled hi] at ha ⊢
    obtain ⟨action, hs, hr⟩ := synthesizeIncident_authorized_iff.mp ha
    rw [(synthesizeIncident_authorized hs hr).2.2]
    exact actionIntent_shaped_iff hs
  · intro hk prior chosen hprior hshape
    rw [synthesizeWindow_recovery hcheck henabled hk] at ha ⊢
    obtain ⟨he, live, hlive, hactive⟩ := synthesizeRecovery_authorized_iff.mp ha
    obtain rfl : prior = live := Option.some.inj (hprior.symm.trans hlive)
    rw [synthesizeRecovery_intent he hprior hactive]
    simp only
    split_ifs with hcompletes
    · exact iff_of_true retiredIntent_shaped (Or.inl hcompletes)
    · rw [or_iff_right hcompletes]
      exact relaxedIntent_shaped_iff hshape hcompletes

end Result

theorem synthesize_shaped_sample :
    ∃ chosen, chosen.Sublist (classify (sampleBundle 1 1000000000 [sampleRow 1 1500,
        sampleRow 2 1500]) samplePolicy [] {}).contributions ∧
      (synthesize (windowRequest (sampleBundle 1 1000000000 [sampleRow 1 1500, sampleRow 2 1500])
        samplePolicy)).intent.Shaped chosen :=
  ((synthesize_shaped_iff rfl rfl rfl (by decide +kernel)).1 (by decide +kernel)).mpr
    (by decide +kernel)

/-- A sender of one byte per second beside a protected one that offers three times the service
rate. -/
def tinyBundle : EvidenceBundle :=
  sampleBundle 1 1000000000 [sampleRow 1 1, { sampleRow 2 3000 with protectedObligation := true }]

/-- Half of one byte is nothing: the intent is an escalation of the destination that penalizes the
sender. -/
theorem escalation_penalizes :
    ¬∀ request bundle policy classification, request.bundle = some bundle →
      request.policy = some policy → request.classification = some classification →
        policy.validate = .ok () → classification.kind.incident →
          (synthesize request).authority.interventionAuthorized = true →
            ∃ chosen, chosen.Sublist classification.contributions ∧
              (synthesize request).intent.Shaped chosen := by
  intro h
  obtain ⟨chosen, -, hshape⟩ := h (windowRequest tinyBundle samplePolicy) tinyBundle samplePolicy _
    rfl rfl rfl (by decide +kernel) (by decide +kernel) (by decide +kernel)
  have hkind : (synthesize (windowRequest tinyBundle samplePolicy)).intent.kind =
      .congestionEscalation := by decide +kernel
  have hsenders : (synthesize (windowRequest tinyBundle samplePolicy)).intent.penalizedSenders ≠
      [] := by decide +kernel
  exact hsenders (hshape.escalation hkind).1

end IncastGovernor
