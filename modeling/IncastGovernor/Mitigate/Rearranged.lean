import IncastGovernor.Detect.SameEvidence
import IncastGovernor.Mitigate.Synthesize

/-! What a window says when its rows are rearranged or repeated. Detection and synthesis do not
depend on the order of rows with distinct keys. A repeated row is counted again. -/

namespace IncastGovernor

/-- The request of one window: the evidence checked, classified and passed on. -/
def SynthesisRequest.forWindow (request : SynthesisRequest) (bundle : EvidenceBundle)
    (policy : GovernorPolicy) (context : ClassificationContext) (last : PerClass UInt64) :
    SynthesisRequest :=
  { request with
    bundle := some bundle
    policy := some policy
    classification := some (classify bundle policy (detectCollisions bundle) context)
    check := checkAuthority bundle policy last }

namespace SameEvidence

variable {bundle : EvidenceBundle} {senders : List SenderObservation}
  {queues : List QueueObservation}

theorem bindings_eq (h : SameEvidence bundle senders queues) (request : SynthesisRequest)
    (policy : GovernorPolicy) (classification : Classification) :
    request.bindings (bundle.withRows senders queues) policy classification =
      request.bindings bundle policy classification := by
  have hworst : worstQueue (bundle.withRows senders queues).queues = worstQueue bundle.queues :=
    h.worst
  simp only [SynthesisRequest.bindings, hworst]
  rfl

theorem incident_eq (h : SameEvidence bundle senders queues) (request : SynthesisRequest)
    (policy : GovernorPolicy) (classification : Classification) (intent : MitigationIntent)
    (authority : AuthorityVector) :
    synthesizeIncident request (bundle.withRows senders queues) policy classification intent
        authority =
      synthesizeIncident request bundle policy classification intent authority := by
  unfold synthesizeIncident
  cases sizeAction policy classification with
  | none => rfl
  | some action =>
    have hsized : sizedIntent request (bundle.withRows senders queues) policy classification action =
        sizedIntent request bundle policy classification action := by
      simp only [sizedIntent, h.bindings_eq]
      rfl
    simp only [hsized]
    rfl

theorem window_eq (h : SameEvidence bundle senders queues) (request : SynthesisRequest)
    (policy : GovernorPolicy) (classification : Classification) :
    synthesizeWindow request (bundle.withRows senders queues) policy classification =
      synthesizeWindow request bundle policy classification := by
  unfold synthesizeWindow
  simp only [h.bindings_eq, h.incident_eq]
  rfl

theorem synthesis_eq (h : SameEvidence bundle senders queues) (request : SynthesisRequest)
    (policy : GovernorPolicy) (context : ClassificationContext) (last : PerClass UInt64) :
    synthesize (request.forWindow (bundle.withRows senders queues) policy context last) =
      synthesize (request.forWindow bundle policy context last) := by
  unfold synthesize SynthesisRequest.forWindow
  simp only [h.detectCollisions_eq, h.classification_eq, h.check_eq]
  exact (h.window_eq _ policy _).trans rfl

end SameEvidence

/-! ### Rearranged rows -/

section Rows

variable {bundle : EvidenceBundle} {senders : List SenderObservation}
  {queues : List QueueObservation} {row : SenderObservation}

theorem SameEvidence.of_perm (hs : bundle.structurallyValid) (hsenders : senders.Perm bundle.senders)
    (hqueues : queues.Perm bundle.queues)
    (hkeys : (bundle.senders.map fun row => identityKey row.identity).Nodup)
    (hids : (bundle.queues.map fun q => q.queue).Nodup) : SameEvidence bundle senders queues := by
  have hvalid : (bundle.withRows senders queues).structurallyValid := by
    obtain ⟨h1, h2, h3, h4, h5, h6, h7⟩ := hs
    exact ⟨h1, h2, h3, h4, h5, hsenders.length_eq.trans_le h6, hqueues.length_eq.trans_le h7⟩
  have hcounted : (countedRows (bundle.withRows senders queues)).Perm (countedRows bundle) := by
    rw [countedRows_of_structurallyValid hvalid, countedRows_of_structurallyValid hs]
    exact hsenders.filter _
  have hfirst : ∀ rows : List SenderObservation, rows.Perm (countedRows bundle) →
      firstByKey [] rows = rows := fun rows hrows => by
    rw [firstByKey_eq_firstBy]
    refine Foundation.firstBy_of_nodup ?_ fun _ _ => List.not_mem_nil
    rw [(hrows.map _).nodup_iff, countedRows_of_structurallyValid hs]
    exact hkeys.sublist (List.filter_sublist.map _)
  refine ⟨hs, hvalid, hcounted, ?_, (worstQueue_perm hqueues.symm hids).symm⟩
  rw [hfirst _ hcounted, hfirst _ (List.Perm.refl _)]
  exact hcounted

/-- Rows with distinct keys say the same in every order. -/
theorem rearranged_rows_same (hs : bundle.structurallyValid) (hsenders : senders.Perm bundle.senders)
    (hqueues : queues.Perm bundle.queues)
    (hkeys : (bundle.senders.map fun row => identityKey row.identity).Nodup)
    (hids : (bundle.queues.map fun q => q.queue).Nodup) (policy : GovernorPolicy)
    (context : ClassificationContext) (last : PerClass UInt64) (request : SynthesisRequest) :
    let rearranged := bundle.withRows senders queues
    let metrics := computeMetrics bundle policy
    let synchronization := computeSynchronization bundle metrics policy
    computeMetrics rearranged policy = metrics ∧
      detectCollisions rearranged = detectCollisions bundle ∧
      computeSynchronization rearranged (computeMetrics rearranged policy) policy =
        synchronization ∧
      classify rearranged policy (detectCollisions rearranged) context =
        classify bundle policy (detectCollisions bundle) context ∧
      rankContributions rearranged policy metrics synchronization (detectCollisions rearranged) =
        rankContributions bundle policy metrics synchronization (detectCollisions bundle) ∧
      synthesize (request.forWindow rearranged policy context last) =
        synthesize (request.forWindow bundle policy context last) := by
  have h := SameEvidence.of_perm hs hsenders hqueues hkeys hids
  simp only [h.detectCollisions_eq]
  refine ⟨h.metrics_eq policy, trivial, ?_, h.classification_eq policy _ context,
    h.contributions_eq policy _ _ _, h.synthesis_eq request policy context last⟩
  rw [h.metrics_eq, h.synchronization_eq]

theorem rearranged_rows_same_swap :
    synthesize (SynthesisRequest.forWindow {} ((sampleBundle 1 1000000000 [sampleRow 1 1500,
        sampleRow 2 1500]).withRows [sampleRow 2 1500, sampleRow 1 1500] []) samplePolicy {}
          noSequences) =
      synthesize (SynthesisRequest.forWindow {} (sampleBundle 1 1000000000 [sampleRow 1 1500,
        sampleRow 2 1500]) samplePolicy {} noSequences) := by
  have hs : (sampleBundle 1 1000000000 [sampleRow 1 1500, sampleRow 2 1500]).structurallyValid := by
    decide
  exact (rearranged_rows_same hs (List.Perm.swap _ _ _) (List.Perm.refl _) (by decide +kernel)
    (by decide) samplePolicy {} noSequences {}).2.2.2.2.2

/-! ### Repeated rows -/

/-- The bundle with a further row. -/
def EvidenceBundle.appendSender (bundle : EvidenceBundle) (row : SenderObservation) :
    EvidenceBundle :=
  bundle.withRows (bundle.senders ++ [row]) bundle.queues

/-- A further row changes nothing that is counted or concluded. -/
structure CountsNothing (bundle : EvidenceBundle) (policy : GovernorPolicy)
    (row : SenderObservation) : Prop where
  activeSenders : (computeMetrics (bundle.appendSender row) policy).activeSenders =
    (computeMetrics bundle policy).activeSenders
  aggregateOffered : (computeMetrics (bundle.appendSender row) policy).aggregateOffered =
    (computeMetrics bundle policy).aggregateOffered
  verdict : (computeSynchronization (bundle.appendSender row)
      (computeMetrics (bundle.appendSender row) policy) policy).synchronized =
    (computeSynchronization bundle (computeMetrics bundle policy) policy).synchronized
  kind : detectedKind (bundle.appendSender row) policy = detectedKind bundle policy
  intent : ∀ (request : SynthesisRequest) (context : ClassificationContext) (last : PerClass UInt64),
    (synthesize (request.forWindow (bundle.appendSender row) policy context last)).intent =
      (synthesize (request.forWindow bundle policy context last)).intent

theorem appendSender_structurallyValid (hs : bundle.structurallyValid)
    (hroom : bundle.senders.length < kMaxSendersPerWindow) :
    (bundle.appendSender row).structurallyValid := by
  obtain ⟨h1, h2, h3, h4, h5, -, h7⟩ := hs
  refine ⟨h1, h2, h3, h4, h5, ?_, h7⟩
  rw [EvidenceBundle.appendSender, EvidenceBundle.withRows, List.length_append]
  exact hroom

theorem countedRows_appendSender (hs : bundle.structurallyValid)
    (hroom : bundle.senders.length < kMaxSendersPerWindow) :
    countedRows (bundle.appendSender row) =
      countedRows bundle ++ if row.identity.valid then [row] else [] := by
  rw [countedRows_of_structurallyValid (appendSender_structurallyValid hs hroom),
    countedRows_of_structurallyValid hs, EvidenceBundle.appendSender, EvidenceBundle.withRows,
    List.filter_append]
  split_ifs with hv <;> simp [hv]

/-- A further row that has an identity is a further sender. -/
theorem activeSenders_appendSender (hs : bundle.structurallyValid)
    (hroom : bundle.senders.length < kMaxSendersPerWindow) (hv : row.identity.valid)
    (policy : GovernorPolicy) :
    (computeMetrics (bundle.appendSender row) policy).activeSenders ≠
      (computeMetrics bundle policy).activeSenders := by
  have hlen : (countedRows bundle).length < kMaxSendersPerWindow := by
    rw [countedRows_of_structurallyValid hs]
    exact (List.length_filter_le _ _).trans_lt hroom
  change UInt32.ofNat (countedRows (bundle.appendSender row)).length ≠
    UInt32.ofNat (countedRows bundle).length
  rw [countedRows_appendSender hs hroom, if_pos hv, List.length_append, ne_eq, ← UInt32.toNat_inj,
    UInt32.toNat_ofNat', UInt32.toNat_ofNat']
  simp only [kMaxSendersPerWindow, List.length_singleton] at hlen ⊢
  omega

/-- A further row, such as a copy of one that is there, counts for nothing exactly when its identity
is not valid. -/
theorem appendSender_countsNothing_iff (hs : bundle.structurallyValid)
    (hroom : bundle.senders.length < kMaxSendersPerWindow) (policy : GovernorPolicy) :
    CountsNothing bundle policy row ↔ ¬row.identity.valid := by
  constructor
  · exact fun h hv => activeSenders_appendSender hs hroom hv policy h.activeSenders
  · intro hv
    have hcounted : countedRows (bundle.appendSender row) = countedRows bundle := by
      rw [countedRows_appendSender hs hroom, if_neg hv, List.append_nil]
    have h : SameEvidence bundle (bundle.senders ++ [row]) bundle.queues := by
      refine ⟨hs, appendSender_structurallyValid hs hroom, List.Perm.of_eq hcounted, ?_, rfl⟩
      exact List.Perm.of_eq (congrArg (firstByKey []) hcounted)
    have hmetrics := h.metrics_eq policy
    have hsync := h.synchronization_eq (computeMetrics bundle policy) policy
    refine ⟨congrArg FanInMetrics.activeSenders hmetrics,
      congrArg FanInMetrics.aggregateOffered hmetrics, ?_, ?_, fun request context last =>
        congrArg SynthesisResult.intent (h.synthesis_eq request policy context last)⟩
    · rw [EvidenceBundle.appendSender, hmetrics, hsync]
    · simp only [detectedKind, EvidenceBundle.appendSender, hmetrics, hsync]

end Rows

/-- One sender of more than the service rate. -/
def loneSenderBundle : EvidenceBundle := sampleBundle 1 1000000000 [sampleRow 1 1500]

/-- A row that names no incarnation. -/
def namelessRow : SenderObservation :=
  { sampleRow 1 1500 with identity := { sender := ⟨1⟩, flow := ⟨1⟩ } }

theorem appendSender_countsNothing_lone :
    ¬CountsNothing loneSenderBundle samplePolicy (sampleRow 1 1500) ∧
      CountsNothing loneSenderBundle samplePolicy namelessRow :=
  ⟨fun h => (appendSender_countsNothing_iff (by decide) (by decide) samplePolicy).mp h (by decide),
    (appendSender_countsNothing_iff (by decide) (by decide) samplePolicy).mpr (by decide)⟩

/-- Its row repeated makes an incast of two senders of it. -/
theorem repeated_row_makes_incast :
    ¬∀ bundle policy row, bundle.structurallyValid → policy.validate = .ok () →
      row ∈ bundle.senders → bundle.senders.length < kMaxSendersPerWindow →
        CountsNothing bundle policy row := by
  intro h
  have hkind := (h loneSenderBundle samplePolicy (sampleRow 1 1500) (by decide) (by decide +kernel)
    List.mem_cons_self (by decide)).kind
  have hbefore : detectedKind loneSenderBundle samplePolicy = .noFanIn := by decide +kernel
  have hafter : detectedKind (loneSenderBundle.appendSender (sampleRow 1 1500)) samplePolicy =
      .activeIncast := by decide +kernel
  rw [hbefore, hafter] at hkind
  cases hkind

end IncastGovernor
