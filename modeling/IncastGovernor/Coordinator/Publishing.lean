import IncastGovernor.Coordinator.Grants

/-! The decisions of a run. A log keeps every decision that was published and whether it
was accepted. A lease record carries the last sequence accepted under its lease: only an
accepted decision writes it, no section takes it back, and no record leaves the table, so
a sequence is accepted once for a lease. Each decision moves one of the two counts. -/

namespace IncastGovernor

open Foundation

namespace Coordinator

variable {c c' : Coordinator}

/-! ### The sequences of the records -/

/-- Every lease is kept, and its last accepted sequence does not go back. -/
def keepsSequences (c c' : Coordinator) : Prop :=
  ∀ a ∈ c.leases.entries, ∃ b ∈ c'.leases.entries,
    b.grant.lease = a.grant.lease ∧ a.leaseSequence ≤ b.leaseSequence

theorem keepsSequences_of_leases (h : c'.leases = c.leases) : keepsSequences c c' := by
  intro a ha
  rw [← h] at ha
  exact ⟨a, ha, rfl, UInt64.le_refl _⟩

theorem keepsSequences_of_map {f : LeaseRecord → LeaseRecord}
    (hl : ∀ a ∈ c.leases.entries, (f a).grant.lease = a.grant.lease ∧
      a.leaseSequence ≤ (f a).leaseSequence)
    (hm : ∀ a ∈ c.leases.entries, f a ∈ c'.leases.entries) : keepsSequences c c' :=
  fun a ha => ⟨f a, hm a ha, hl a ha⟩

section Sections

variable {request : MessageLeaseRequest} {now : Timestamp} {order : Enumeration LeaseRecord}
  {fault : Option AtomicWriteFault}

theorem claimRecord_sequence (c : Coordinator) (request : MessageLeaseRequest) (now : Timestamp)
    (a : LeaseRecord) : (c.claimRecord request now a).grant.lease = a.grant.lease ∧
      a.leaseSequence ≤ (c.claimRecord request now a).leaseSequence := by
  unfold claimRecord
  split_ifs <;> exact ⟨rfl, UInt64.le_refl _⟩

theorem entered_kept {start : Coordinator} (h : Sound c)
    (hl : start.leases.entries.Perm (c.leases.entries.map (c.claimRecord request now)))
    (hn : start.nextLease = c.nextLease) {a : LeaseRecord} (ha : a ∈ c.leases.entries) :
    c.claimRecord request now a ∈ (start.entered request now).leases.entries := by
  rw [entered_entries h hl hn]
  exact List.mem_append_left _ (hl.symm.subset (List.mem_map_of_mem ha))

/-- A request leaves the table, or leaves of every record what the loop made of it. -/
theorem leaseRequest_kept (h : Sound c)
    (hs : c.perform (.leaseRequest request now order fault) = some c') :
    c'.leases = c.leases ∨
      ∀ a ∈ c.leases.entries, c.claimRecord request now a ∈ c'.leases.entries := by
  have hby := leaseRequest_by h.exclusive hs
  generalize c.granted (.leaseRequest request now order fault) = sent at hby
  have hclaimed := @claimed_entries c request now order h.exclusive
  have hadvanced := @advanced_entries c request now order fault h.exclusive
  have hnext := (advanceEpoch_leases (c.claimed request now order) fault).2
  cases hby with
  | refused => exact Or.inl rfl
  | refreshed =>
    exact Or.inr fun a ha => hclaimed.symm.subset (List.mem_map_of_mem ha)
  | unpersisted =>
    exact Or.inr fun a ha => hadvanced.symm.subset (List.mem_map_of_mem ha)
  | superseding => exact Or.inr fun a ha => entered_kept h hadvanced hnext ha
  | fresh => exact Or.inr fun a ha => entered_kept h hclaimed rfl ha

theorem leaseRequest_sequences (h : Sound c)
    (hs : c.perform (.leaseRequest request now order fault) = some c') : keepsSequences c c' := by
  rcases leaseRequest_kept h hs with hl | hkept
  · exact keepsSequences_of_leases hl
  · exact keepsSequences_of_map (fun a _ => claimRecord_sequence c request now a) hkept

theorem modify_sequences (k : UInt64) (f : LeaseRecord → LeaseRecord)
    (hk : ∀ a, (f a).key = a.key)
    (hf : ∀ a ∈ c.leases.entries, a.key = k →
      (f a).grant.lease = a.grant.lease ∧ a.leaseSequence ≤ (f a).leaseSequence)
    (hl : c'.leases = c.leases.modify k f hk) : keepsSequences c c' := by
  intro a ha
  by_cases hka : a.key = k
  · refine ⟨f a, ?_, hf a ha hka⟩
    rw [hl]
    exact KeyedTable.mem_modify.mpr ⟨a, ha, if_pos hka⟩
  · refine ⟨a, ?_, rfl, UInt64.le_refl _⟩
    rw [hl]
    exact KeyedTable.mem_modify.mpr ⟨a, ha, if_neg hka⟩

theorem renewLease_sequences (c : Coordinator) (renew : MessageLeaseRenew) (now : Timestamp) :
    keepsSequences c (c.renewLease renew now).1 := by
  rcases renewLease_cases c renew now with ⟨denied, h⟩ | ⟨record, -, -, -, -, h⟩
  · rw [h]
    exact keepsSequences_of_leases rfl
  · rw [h]
    exact modify_sequences _ (fun r => r.renew now (c.expiry now))
      (fun r => r.renew_key now (c.expiry now)) (fun a _ _ => ⟨rfl, UInt64.le_refl _⟩) rfl

/-- A published decision writes a sequence only where it is newer. -/
theorem publishRecord_sequence (c : Coordinator) (publish : MessageDecisionPublish)
    (now : Timestamp) (a : LeaseRecord) :
    a.leaseSequence ≤ (c.publishRecord publish now a).leaseSequence := by
  unfold publishRecord
  split_ifs with hrevoked haccepted
  · exact UInt64.le_refl _
  · obtain ⟨_, _, _, _, _, hnewer⟩ := publishRefusal_eq_none.mp haccepted
    exact UInt64.le_of_lt (UInt64.not_le.mp hnewer)
  · exact UInt64.le_refl _

theorem publishDecision_sequences (c : Coordinator) (publish : MessageDecisionPublish)
    (now : Timestamp) : keepsSequences c (c.publishDecision publish now).1 := by
  intro a ha
  refine ⟨if a.key = publish.lease.value then c.publishRecord publish now a else a,
    publishDecision_mem.mpr ⟨a, ha, rfl⟩, ?_⟩
  split_ifs
  · exact ⟨congrArg MessageLeaseGrant.lease (publishRecord_grant c publish now a),
      publishRecord_sequence c publish now a⟩
  · exact ⟨rfl, UInt64.le_refl _⟩

theorem handleControl_sequences (c : Coordinator) (request : ControlRequest)
    (fault : Option AtomicWriteFault) : keepsSequences c (c.handleControl request fault).1 := by
  have hby := handleControl_by c request fault
  generalize (c.handleControl request fault).1 = next at hby
  cases hby with
  | unchanged other => exact keepsSequences_of_leases rfl
  | advanced accepted opcode => exact keepsSequences_of_leases (advanceEpoch_leases c fault).1
  | revoked accepted opcode =>
    exact @keepsSequences_of_map c c.revokeAll LeaseRecord.revoke
      (fun a _ => ⟨rfl, UInt64.le_refl _⟩) fun a ha => List.mem_map_of_mem ha

/-- No section takes a sequence back. -/
theorem perform_sequences (h : Sound c) (s : Section) (hs : c.perform s = some c') :
    keepsSequences c c' := by
  cases s with
  | leaseRequest request now order fault => exact leaseRequest_sequences h hs
  | leaseRenew renew now =>
    rw [← Option.some.inj hs]
    exact renewLease_sequences c renew now
  | decisionPublish publish now =>
    rw [← Option.some.inj hs]
    exact publishDecision_sequences c publish now
  | control request fault =>
    rw [← Option.some.inj hs]
    exact handleControl_sequences c request fault
  | advanceEpoch fault =>
    rw [← Option.some.inj hs]
    exact keepsSequences_of_leases (advanceEpoch_leases c fault).1
  | _ =>
    rw [← Option.some.inj hs]
    exact keepsSequences_of_leases rfl

end Sections

/-! ### The log of decisions -/

/-- The decision of a section. -/
def decision : Section → Option MessageDecisionPublish
  | .decisionPublish publish _ => some publish
  | _ => none

/-- The decision of a section, with the answer of the process. -/
def published (c : Coordinator) : Section → List (MessageDecisionPublish × Bool)
  | .decisionPublish publish now => [(publish, (c.publishDecision publish now).2.accepted)]
  | _ => []

/-- A process, while it lives, with the log of the decisions published so far. -/
abbrev Publishing := Option Coordinator × List (MessageDecisionPublish × Bool)

def publishingStep (s : Publishing) (x : Section) : Publishing :=
  match s.1 with
  | none => s
  | some c => (c.perform x, s.2 ++ c.published x)

def acceptedDecisions (log : List (MessageDecisionPublish × Bool)) : List MessageDecisionPublish :=
  (log.filter fun entry => entry.2).map fun entry => entry.1

def rejectedDecisions (log : List (MessageDecisionPublish × Bool)) : List MessageDecisionPublish :=
  (log.filter fun entry => !entry.2).map fun entry => entry.1

theorem acceptedDecisions_append (xs ys : List (MessageDecisionPublish × Bool)) :
    acceptedDecisions (xs ++ ys) = acceptedDecisions xs ++ acceptedDecisions ys := by
  simp [acceptedDecisions]

theorem rejectedDecisions_append (xs ys : List (MessageDecisionPublish × Bool)) :
    rejectedDecisions (xs ++ ys) = rejectedDecisions xs ++ rejectedDecisions ys := by
  simp [rejectedDecisions]

/-- Each decision was accepted or rejected. -/
theorem decisions_length (log : List (MessageDecisionPublish × Bool)) :
    (acceptedDecisions log).length + (rejectedDecisions log).length = log.length := by
  induction log with
  | nil => rfl
  | cons entry rest ih =>
    obtain ⟨publish, accepted⟩ := entry
    unfold acceptedDecisions rejectedDecisions at ih ⊢
    simp only [List.length_map] at ih
    cases accepted <;> simp <;> omega

/-! ### The counts -/

/-- The counts of decisions of a coordinator. -/
def decisionCounts (c : Coordinator) : UInt64 × UInt64 :=
  (c.statistics.decisionsAccepted, c.statistics.decisionsRejected)

theorem persistEpoch_decisionCounts (c : Coordinator) (fault : Option AtomicWriteFault) :
    (c.persistEpoch fault).1.decisionCounts = c.decisionCounts := by
  unfold persistEpoch
  split_ifs <;> rfl

theorem advanceEpoch_decisionCounts (c : Coordinator) (fault : Option AtomicWriteFault) :
    (c.advanceEpoch fault).1.decisionCounts = c.decisionCounts :=
  persistEpoch_decisionCounts c.bumpEpoch fault

theorem start_decisionCounts {environment : StartEnvironment} {disk : Option Text}
    (h : c.start environment disk = .ok c') : c'.decisionCounts = c.decisionCounts := by
  rcases start_ok h with ⟨-, rfl⟩ | ⟨ledger, -, hr⟩
  · rfl
  · obtain ⟨persisted, -, hstored⟩ := resume_ok hr
    have hcounts := persistEpoch_decisionCounts
      { c with
        boot := environment.boot
        epoch := { c with boot := environment.boot }.resumeEpoch persisted
        ledger, ledgerOpen := true } environment.fault
    rw [hstored] at hcounts
    exact hcounts

theorem leaseRequest_decisionCounts {request : MessageLeaseRequest} {now : Timestamp}
    {order : Enumeration LeaseRecord} {fault : Option AtomicWriteFault} (h : Sound c)
    (hs : c.perform (.leaseRequest request now order fault) = some c') :
    c'.decisionCounts = c.decisionCounts := by
  have hby := leaseRequest_by h.exclusive hs
  generalize c.granted (.leaseRequest request now order fault) = sent at hby
  have hadvanced := advanceEpoch_decisionCounts (c.claimed request now order) fault
  cases hby with
  | unpersisted => exact hadvanced
  | superseding => exact hadvanced
  | _ => rfl

theorem handleControl_decisionCounts (c : Coordinator) (request : ControlRequest)
    (fault : Option AtomicWriteFault) :
    (c.handleControl request fault).1.decisionCounts = c.decisionCounts := by
  have hby := handleControl_by c request fault
  generalize (c.handleControl request fault).1 = next at hby
  cases hby with
  | unchanged other => rfl
  | advanced accepted opcode => exact advanceEpoch_decisionCounts c fault
  | revoked accepted opcode => rfl

theorem publishDecision_decisionCounts (c : Coordinator) (publish : MessageDecisionPublish)
    (now : Timestamp) :
    (c.publishDecision publish now).1.decisionCounts =
      if (c.publishDecision publish now).2.accepted then
        (c.statistics.decisionsAccepted + 1, c.statistics.decisionsRejected)
      else (c.statistics.decisionsAccepted, c.statistics.decisionsRejected + 1) := by
  unfold publishDecision
  simp only
  cases c.leases.find publish.lease.value with
  | none => rfl
  | some record =>
    obtain ⟨refusal, hr⟩ : ∃ refusal, c.publishRefusal publish record now = refusal := ⟨_, rfl⟩
    cases refusal <;> simp only [hr] <;> rfl

/-- A section counts the decision it publishes, and no other section counts one. -/
theorem perform_decisionCounts (h : Sound c) (s : Section) (hs : c.perform s = some c') :
    c'.decisionCounts =
      (c.statistics.decisionsAccepted + UInt64.ofNat (acceptedDecisions (c.published s)).length,
        c.statistics.decisionsRejected +
          UInt64.ofNat (rejectedDecisions (c.published s)).length) := by
  have hnone : c.decisionCounts =
      (c.statistics.decisionsAccepted + UInt64.ofNat 0,
        c.statistics.decisionsRejected + UInt64.ofNat 0) := by
    simp [decisionCounts]
  cases s with
  | leaseRequest request now order fault =>
    exact (leaseRequest_decisionCounts h hs).trans hnone
  | leaseRenew renew now =>
    rw [← Option.some.inj hs]
    rcases renewLease_cases c renew now with ⟨denied, hr⟩ | ⟨record, -, -, -, -, hr⟩
    · rw [hr]
      exact hnone
    · rw [hr]
      exact hnone
  | decisionPublish publish now =>
    rw [← Option.some.inj hs, publishDecision_decisionCounts]
    show _ = (_ + UInt64.ofNat (acceptedDecisions [(publish, _)]).length,
      _ + UInt64.ofNat (rejectedDecisions [(publish, _)]).length)
    cases (c.publishDecision publish now).2.accepted <;> simp [acceptedDecisions, rejectedDecisions]
  | control request fault =>
    rw [← Option.some.inj hs]
    exact (handleControl_decisionCounts c request fault).trans hnone
  | advanceEpoch fault =>
    rw [← Option.some.inj hs]
    exact (advanceEpoch_decisionCounts c fault).trans hnone
  | _ =>
    rw [← Option.some.inj hs]
    exact hnone

/-! ### Runs -/

/-- What holds of a process and the decisions published to it. -/
structure PublishingSound (c : Coordinator) (log : List (MessageDecisionPublish × Bool)) : Prop where
  sound : Sound c
  recorded : ∀ publish ∈ acceptedDecisions log, ∃ record ∈ c.leases.entries,
    record.grant.lease = publish.lease ∧ publish.sequence ≤ record.leaseSequence
  counts : c.decisionCounts = (UInt64.ofNat (acceptedDecisions log).length,
    UInt64.ofNat (rejectedDecisions log).length)

/-- The decisions accepted for one lease come in strictly increasing order. -/
def ordered (log : List (MessageDecisionPublish × Bool)) : Prop :=
  (acceptedDecisions log).Pairwise fun a b => a.lease = b.lease → a.sequence < b.sequence

/-- The record of a lease is past every sequence that an accepted decision carries. -/
theorem accepted_newer {log : List (MessageDecisionPublish × Bool)} (h : PublishingSound c log)
    {publish : MessageDecisionPublish} {now : Timestamp}
    (ha : (c.publishDecision publish now).2.accepted = true) {earlier : MessageDecisionPublish}
    (hm : earlier ∈ acceptedDecisions log) (hl : earlier.lease = publish.lease) :
    earlier.sequence < publish.sequence := by
  obtain ⟨record, hfind, hrefusal⟩ := accepted_iff.mp ha
  obtain ⟨hrecord, hkey⟩ := KeyedTable.find_eq_some.mp hfind
  obtain ⟨held, hheld, hlease, hle⟩ := h.recorded earlier hm
  have hsame : held = record := by
    apply KeyedTable.eq_of_key_eq hheld hrecord
    rw [hkey, ← hl, ← hlease]
    rfl
  obtain ⟨_, _, _, _, _, hnewer⟩ := publishRefusal_eq_none.mp hrefusal
  rw [← hsame] at hnewer
  exact UInt64.lt_of_le_of_lt hle (UInt64.not_le.mp hnewer)

/-- The record of an accepted decision holds its sequence. -/
theorem accepted_recorded {publish : MessageDecisionPublish} {now : Timestamp}
    (ha : (c.publishDecision publish now).2.accepted = true) :
    ∃ record ∈ (c.publishDecision publish now).1.leases.entries,
      record.grant.lease = publish.lease ∧ publish.sequence ≤ record.leaseSequence := by
  obtain ⟨record, hfind, hrefusal⟩ := accepted_iff.mp ha
  obtain ⟨hrecord, hkey⟩ := KeyedTable.find_eq_some.mp hfind
  obtain ⟨_, hepoch, _⟩ := publishRefusal_eq_none.mp hrefusal
  have hdecided : c.publishRecord publish now record = record.decided publish := by
    unfold publishRecord
    rw [if_neg fun hc => hc.2 hepoch, if_pos hrefusal]
  refine ⟨record.decided publish, publishDecision_mem.mpr ⟨record, hrecord, ?_⟩,
    StrongId.ext hkey, UInt64.le_refl _⟩
  rw [if_pos hkey, hdecided]

theorem acceptedDecisions_published (c : Coordinator) (s : Section) :
    acceptedDecisions (c.published s) = [] ∨
      ∃ publish now, s = .decisionPublish publish now ∧
        (c.publishDecision publish now).2.accepted = true ∧
        acceptedDecisions (c.published s) = [publish] := by
  cases s with
  | decisionPublish publish now =>
    cases ha : (c.publishDecision publish now).2.accepted with
    | false =>
      left
      simp [published, acceptedDecisions, ha]
    | true =>
      right
      exact ⟨publish, now, rfl, ha, by simp [published, acceptedDecisions, ha]⟩
  | _ => exact Or.inl rfl

theorem ordered_step {log : List (MessageDecisionPublish × Bool)} (h : PublishingSound c log)
    (ho : ordered log) (s : Section) : ordered (log ++ c.published s) := by
  unfold ordered at ho ⊢
  rw [acceptedDecisions_append]
  rcases acceptedDecisions_published c s with he | ⟨publish, now, _, ha, he⟩
  · rw [he, List.append_nil]
    exact ho
  · rw [he, List.pairwise_append]
    refine ⟨ho, List.pairwise_singleton _ _, fun earlier hm later hl => ?_⟩
    obtain rfl := List.mem_singleton.mp hl
    exact accepted_newer h ha hm

theorem publishingSound_step {log : List (MessageDecisionPublish × Bool)}
    (h : PublishingSound c log) {s : Section} (hs : c.perform s = some c') :
    PublishingSound c' (log ++ c.published s) where
  sound := h.sound.step (perform_tableStep h.sound s hs)
  recorded := by
    intro publish hm
    rw [acceptedDecisions_append, List.mem_append] at hm
    rcases hm with hold | hnew
    · obtain ⟨a, ha, hlease, hle⟩ := h.recorded publish hold
      obtain ⟨b, hb, hkept, hgrown⟩ := perform_sequences h.sound s hs a ha
      exact ⟨b, hb, hkept.trans hlease, UInt64.le_trans hle hgrown⟩
    · rcases acceptedDecisions_published c s with he | ⟨decided, now, rfl, ha, he⟩
      · rw [he] at hnew
        cases hnew
      · rw [he] at hnew
        obtain rfl := List.mem_singleton.mp hnew
        rw [← Option.some.inj hs]
        exact accepted_recorded ha
  counts := by
    have hcounts := h.counts
    obtain ⟨haccepted, hrejected⟩ := Prod.mk.inj hcounts
    rw [perform_decisionCounts h.sound s hs, haccepted, hrejected, acceptedDecisions_append,
      rejectedDecisions_append, List.length_append, List.length_append, UInt64.ofNat_add,
      UInt64.ofNat_add]

/-- The log of a run is in order, and sound for the process while it lives. -/
theorem publishing_run {s : Publishing} (ho : ordered s.2)
    (h : ∀ c, s.1 = some c → PublishingSound c s.2) (sections : List Section) :
    ordered (run publishingStep s sections).2 ∧
      ∀ c, (run publishingStep s sections).1 = some c →
        PublishingSound c (run publishingStep s sections).2 := by
  refine run_invariant (P := fun s : Publishing => ordered s.2 ∧
    ∀ c, s.1 = some c → PublishingSound c s.2) (fun s x hs => ?_) ⟨ho, h⟩ sections
  obtain ⟨process, log⟩ := s
  cases process with
  | none => exact hs
  | some c =>
    have hc := hs.2 c rfl
    exact ⟨ordered_step hc hs.1 x, fun c' hc' => publishingSound_step hc hc'⟩

/-- A process that is still alive has answered every decision of its run. -/
theorem publishing_decisions {s : Publishing} {sections : List Section} {c : Coordinator}
    (h : (run publishingStep s sections).1 = some c) :
    (run publishingStep s sections).2.map (fun entry => entry.1) =
      s.2.map (fun entry => entry.1) ++ sections.filterMap decision := by
  induction sections generalizing s with
  | nil => simp
  | cons x rest ih =>
    obtain ⟨process, log⟩ := s
    rw [run_cons] at h ⊢
    rw [ih h]
    cases process with
    | none =>
      have hdead : ∀ sections : List Section,
          (run publishingStep ((none, log) : Publishing) sections).1 = none := by
        intro sections
        induction sections with
        | nil => rfl
        | cons y ys ihy => exact ihy
      have hnone := hdead rest
      change (run publishingStep ((none, log) : Publishing) rest).1 = some c at h
      rw [hnone] at h
      cases h
    | some c =>
      show (log ++ c.published x).map _ ++ _ = _
      rw [List.map_append, List.append_assoc, List.filterMap_cons]
      cases x <;> rfl

/-- Under every interleaving of sections: the sequences accepted for one lease strictly
increase, no sequence of a lease is accepted twice, and the two counts of a live process
add up to the decisions it was sent, in its 64-bit numbers. -/
theorem run_decisions_once (config : CoordinatorConfig) (environment : StartEnvironment)
    (disk : Option Text) (sections : List Section) :
    let s := run publishingStep (launch config environment disk, []) sections
    ordered s.2 ∧
      ((acceptedDecisions s.2).map fun publish => (publish.lease, publish.sequence)).Nodup ∧
      ∀ c, s.1 = some c →
        let processed := (sections.filterMap decision).length
        c.statistics.decisionsAccepted + c.statistics.decisionsRejected = UInt64.ofNat processed ∧
          (processed < 2 ^ 64 → c.statistics.decisionsAccepted.toNat +
            c.statistics.decisionsRejected.toNat = processed) := by
  intro s
  have hinit : ∀ c, launch config environment disk = some c → PublishingSound c [] := by
    intro c hc
    have hstarted := started_of_launch hc
    refine ⟨sound_of_started hstarted, by simp [acceptedDecisions], ?_⟩
    obtain ⟨environment', disk', hs⟩ := hstarted
    exact start_decisionCounts hs
  have hrun := @publishing_run (launch config environment disk, []) List.Pairwise.nil hinit sections
  change ordered s.2 ∧ ∀ c, s.1 = some c → PublishingSound c s.2 at hrun
  obtain ⟨ho, hsound⟩ := hrun
  refine ⟨ho, ?_, fun c hc => ?_⟩
  · unfold ordered at ho
    rw [List.Nodup, List.pairwise_map]
    refine ho.imp fun {a b} hab he => ?_
    obtain ⟨hlease, hsequence⟩ := Prod.mk.inj he
    have hlt := hab hlease
    rw [hsequence] at hlt
    exact UInt64.lt_irrefl _ hlt
  · intro processed
    have hlog : s.2.length = processed := by
      have hdecisions := congrArg List.length (publishing_decisions hc)
      simpa using hdecisions
    obtain ⟨haccepted, hrejected⟩ := Prod.mk.inj (hsound c hc).counts
    have hlength := decisions_length s.2
    rw [haccepted, hrejected, ← UInt64.ofNat_add, hlength, hlog]
    refine ⟨rfl, fun hlt => ?_⟩
    rw [UInt64.toNat_ofNat', UInt64.toNat_ofNat', Nat.mod_eq_of_lt (by omega),
      Nat.mod_eq_of_lt (by omega)]
    omega

end Coordinator

end IncastGovernor
