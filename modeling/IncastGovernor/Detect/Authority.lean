import IncastGovernor.Policy.Document

/-! The authority check on a bundle: each evidence class is assessed on its own
stamp, a required class that is not present denies authority, and the first denying
class in index order wins. The binding fields come after every class. -/

namespace IncastGovernor

inductive RefusalReason where
  | none | policyDisabled | noIncident | missingEvidence | staleEvidence | contradictoryEvidence
  | reorderedEvidence | supersededEvidence | outOfWindowEvidence | eventMismatch
  | destinationMismatch | policyGenerationMismatch | epochMismatch | bootMismatch | leaseMissing
  | leaseExpired | identityCollision | protectedFloorConflict | noMitigablePopulation
  | boundsExceeded | awaitingRecoveryPolicy | malformedBundle | capacityNotRevalidated
  deriving DecidableEq

def RefusalReason.toText : RefusalReason → Text
  | .none => ascii "None"
  | .policyDisabled => ascii "PolicyDisabled"
  | .noIncident => ascii "NoIncident"
  | .missingEvidence => ascii "MissingEvidence"
  | .staleEvidence => ascii "StaleEvidence"
  | .contradictoryEvidence => ascii "ContradictoryEvidence"
  | .reorderedEvidence => ascii "ReorderedEvidence"
  | .supersededEvidence => ascii "SupersededEvidence"
  | .outOfWindowEvidence => ascii "OutOfWindowEvidence"
  | .eventMismatch => ascii "EventMismatch"
  | .destinationMismatch => ascii "DestinationMismatch"
  | .policyGenerationMismatch => ascii "PolicyGenerationMismatch"
  | .epochMismatch => ascii "EpochMismatch"
  | .bootMismatch => ascii "BootMismatch"
  | .leaseMissing => ascii "LeaseMissing"
  | .leaseExpired => ascii "LeaseExpired"
  | .identityCollision => ascii "IdentityCollision"
  | .protectedFloorConflict => ascii "ProtectedFloorConflict"
  | .noMitigablePopulation => ascii "NoMitigablePopulation"
  | .boundsExceeded => ascii "BoundsExceeded"
  | .awaitingRecoveryPolicy => ascii "AwaitingRecoveryPolicy"
  | .malformedBundle => ascii "MalformedBundle"
  | .capacityNotRevalidated => ascii "CapacityNotRevalidated"

def refusalForState : EvidenceState → RefusalReason
  | .present => .none
  | .unknown => .missingEvidence
  | .stale => .staleEvidence
  | .contradictory => .contradictoryEvidence
  | .reordered => .reorderedEvidence
  | .outOfWindow => .outOfWindowEvidence
  | .superseded => .supersededEvidence

theorem refusalForState_eq_none {state : EvidenceState} :
    refusalForState state = .none ↔ state = .present := by
  cases state <;> simp [refusalForState]

structure AuthorityCheck where
  reason : RefusalReason := .none
  detail : Text := []
  classes : PerClass EvidenceState := PerClass.ofFn fun _ => .unknown

/-- The state an evidence class ends up in, with the detail of its denial. -/
def assessStamp (bundle : EvidenceBundle) (policy : GovernorPolicy) (lastSequence : PerClass UInt64)
    (klass : EvidenceClass) : EvidenceState × Text :=
  let stamp := bundle.stampFor klass
  if stamp.state ≠ .present then (stamp.state, ascii "evidence is not present")
  else if ¬stamp.observedAt.valid then (.unknown, ascii "evidence has no observation instant")
  else if bundle.now.valid ∧ stamp.observedAt > bundle.now then
    (.contradictory, ascii "evidence was observed after the evaluation instant")
  else if stamp.validUntil.valid ∧ bundle.now.valid ∧ bundle.now > stamp.validUntil then
    (.stale, ascii "evidence passed its declared validity horizon")
  else if policy.authority.maxFreshnessHorizonNanos > 0 ∧ bundle.now.valid ∧
      bundle.now.nanos - stamp.observedAt.nanos >
        policy.authority.maxFreshnessHorizonNanos.toInt64 then
    (.stale, ascii "evidence is older than the configured freshness horizon")
  else if stamp.window.valid ∧ bundle.window.valid ∧ stamp.window ≠ bundle.window then
    (.outOfWindow, ascii "evidence belongs to a different window")
  else if stamp.sequence ≠ 0 ∧ lastSequence.get klass ≠ 0 ∧
      stamp.sequence ≤ lastSequence.get klass then
    (.reordered, ascii "evidence sequence is not newer than the last accepted sequence")
  else if klass = .capacity ∧ ¬bundle.capacity.serviceRate.positive then
    (.contradictory, ascii "destination capacity reports no positive service rate")
  else if klass = .provenance ∧ (¬stamp.provenance.valid ∨ ¬stamp.provenanceGeneration.valid) then
    (.unknown, ascii "provenance identity or generation is absent")
  else (.present, [])

/-- The first required class that is not present. -/
def firstDenial (bundle : EvidenceBundle) (policy : GovernorPolicy)
    (lastSequence : PerClass UInt64) : Option (RefusalReason × Text) :=
  EvidenceClass.all.findSome? fun klass =>
    let (state, detail) := assessStamp bundle policy lastSequence klass
    if policy.authority.requiredClasses.get klass ∧ state ≠ .present then
      some (refusalForState state,
        klass.toText ++ ascii ": " ++
          if detail = [] then ascii "evidence not authoritative" else detail)
    else none

/-- The binding fields a bundle has to carry. -/
def missingBinding (bundle : EvidenceBundle) (policy : GovernorPolicy) :
    Option (RefusalReason × Text) :=
  if policy.authority.requireMatchingBoot ∧ ¬bundle.boot.valid then
    some (.bootMismatch, ascii "evidence carries no boot incarnation")
  else if policy.authority.requireValidLease ∧ ¬bundle.lease.valid then
    some (.leaseMissing, ascii "evidence carries no lease")
  else if policy.authority.requireValidLease ∧ bundle.leaseExpiry.valid ∧ bundle.now.valid ∧
      bundle.now > bundle.leaseExpiry then
    some (.leaseExpired, ascii "lease expired before the evaluation instant")
  else if policy.authority.requireMatchingEpoch ∧ ¬bundle.epoch.valid then
    some (.epochMismatch, ascii "evidence carries no coordinator epoch")
  else none

def checkAuthority (bundle : EvidenceBundle) (policy : GovernorPolicy)
    (lastSequence : PerClass UInt64) : AuthorityCheck :=
  if ¬policy.enabled then { reason := .policyDisabled, detail := ascii "policy is disabled" }
  else if ¬bundle.structurallyValid then
    { reason := .malformedBundle, detail := ascii "evidence bundle failed structural validation" }
  else
    let state klass := (assessStamp bundle policy lastSequence klass).1
    let classes := PerClass.ofFn state
    match firstDenial bundle policy lastSequence with
    | some (reason, detail) => { reason, detail, classes }
    | none =>
      if policy.authority.requireProvenance ∧ state .provenance ≠ .present then
        { reason := .missingEvidence
          detail := ascii "provenance evidence is required but not present", classes }
      else
        match missingBinding bundle policy with
        | some (reason, detail) => { reason, detail, classes }
        | none => { classes }

/-! ### What a granted check says -/

theorem firstDenial_eq_none {bundle : EvidenceBundle} {policy : GovernorPolicy}
    {last : PerClass UInt64} :
    firstDenial bundle policy last = none ↔ ∀ klass,
      policy.authority.requiredClasses.get klass → (assessStamp bundle policy last klass).1 = .present := by
  unfold firstDenial
  rw [List.findSome?_eq_none_iff]
  constructor
  · intro h klass hreq
    have hk := h klass klass.mem_all
    by_contra hne
    simp [hreq, hne] at hk
  · intro h klass _
    by_cases hreq : policy.authority.requiredClasses.get klass
    · simp [h klass hreq]
    · simp [hreq]

theorem firstDenial_reason {bundle : EvidenceBundle} {policy : GovernorPolicy}
    {last : PerClass UInt64} {denial : RefusalReason × Text}
    (h : firstDenial bundle policy last = some denial) : denial.1 ≠ .none := by
  obtain ⟨klass, _, hk⟩ := List.exists_of_findSome?_eq_some h
  simp only at hk
  split at hk
  · rename_i hc
    rw [← Option.some.inj hk, ne_eq, refusalForState_eq_none]
    exact hc.2
  · simp at hk

theorem missingBinding_reason {bundle : EvidenceBundle} {policy : GovernorPolicy}
    {denial : RefusalReason × Text} (h : missingBinding bundle policy = some denial) :
    denial.1 ≠ .none := by
  unfold missingBinding at h
  split_ifs at h <;> (rw [← Option.some.inj h]; simp)

/-- A check that gives no reason passed every stage. -/
structure AuthorityGranted (bundle : EvidenceBundle) (policy : GovernorPolicy)
    (last : PerClass UInt64) : Prop where
  enabled : policy.enabled = true
  structural : bundle.structurallyValid
  required : ∀ klass, policy.authority.requiredClasses.get klass →
    (assessStamp bundle policy last klass).1 = .present
  provenance : policy.authority.requireProvenance →
    (assessStamp bundle policy last .provenance).1 = .present
  bindings : missingBinding bundle policy = none

theorem checkAuthority_reason_iff {bundle : EvidenceBundle} {policy : GovernorPolicy}
    {last : PerClass UInt64} :
    (checkAuthority bundle policy last).reason = .none ↔ AuthorityGranted bundle policy last := by
  unfold checkAuthority
  by_cases he : policy.enabled
  · by_cases hs : bundle.structurallyValid
    · rw [if_neg (by simpa using he), if_neg (by simpa using hs)]
      cases hd : firstDenial bundle policy last with
      | some denial =>
        have hr := firstDenial_reason hd
        refine ⟨fun h => absurd h hr, fun h => ?_⟩
        rw [firstDenial_eq_none.mpr h.required] at hd
        contradiction
      | none =>
        by_cases hp : policy.authority.requireProvenance ∧
            (assessStamp bundle policy last .provenance).1 ≠ .present
        · simp only [if_pos hp]
          exact ⟨fun h => absurd h (by simp), fun h => absurd (h.provenance hp.1) hp.2⟩
        · simp only [if_neg hp]
          cases hb : missingBinding bundle policy with
          | some denial =>
            have hr := missingBinding_reason hb
            refine ⟨fun h => absurd h hr, fun h => ?_⟩
            rw [h.bindings] at hb
            contradiction
          | none =>
            refine ⟨fun _ => ⟨he, hs, firstDenial_eq_none.mp hd, fun hq => ?_, hb⟩, fun _ => rfl⟩
            by_contra hne
            exact hp ⟨hq, hne⟩
    · rw [if_neg (by simpa using he), if_pos hs]
      exact ⟨fun h => absurd h (by simp), fun h => absurd h.structural hs⟩
  · rw [if_pos he]
    exact ⟨fun h => absurd h (by simp), fun h => absurd h.enabled he⟩

/-- What the stamp of a class assessed as present satisfies. The age is the
machine's difference, which wraps. -/
structure StampPresent (bundle : EvidenceBundle) (policy : GovernorPolicy)
    (last : PerClass UInt64) (klass : EvidenceClass) : Prop where
  state : (bundle.stampFor klass).state = .present
  observed : (bundle.stampFor klass).observedAt.valid
  notFuture : bundle.now.valid → ¬(bundle.stampFor klass).observedAt > bundle.now
  inValidity : (bundle.stampFor klass).validUntil.valid → bundle.now.valid →
    ¬bundle.now > (bundle.stampFor klass).validUntil
  fresh : policy.authority.maxFreshnessHorizonNanos > 0 → bundle.now.valid →
    ¬bundle.now.nanos - (bundle.stampFor klass).observedAt.nanos >
      policy.authority.maxFreshnessHorizonNanos.toInt64
  window : (bundle.stampFor klass).window.valid → bundle.window.valid →
    (bundle.stampFor klass).window = bundle.window
  newer : (bundle.stampFor klass).sequence ≠ 0 → last.get klass ≠ 0 →
    ¬(bundle.stampFor klass).sequence ≤ last.get klass

/-- An assessment that ends present went past each stage that denies. -/
theorem stage_passed {c : Prop} [Decidable c] {denied later : EvidenceState × Text}
    (h : (if c then denied else later).1 = .present) (hd : c → denied.1 ≠ .present) :
    ¬c ∧ later.1 = .present := by
  by_cases hc : c
  · rw [if_pos hc] at h
    exact absurd h (hd hc)
  · rw [if_neg hc] at h
    exact ⟨hc, h⟩

/-- A class is assessed as present exactly when its stamp is, the capacity class reports a positive
rate and the provenance class carries its identity and generation. -/
theorem assessStamp_present_iff {bundle : EvidenceBundle} {policy : GovernorPolicy}
    {last : PerClass UInt64} {klass : EvidenceClass} :
    (assessStamp bundle policy last klass).1 = .present ↔
      StampPresent bundle policy last klass ∧
        ¬(klass = .capacity ∧ ¬bundle.capacity.serviceRate.positive) ∧
        ¬(klass = .provenance ∧ (¬(bundle.stampFor klass).provenance.valid ∨
          ¬(bundle.stampFor klass).provenanceGeneration.valid)) := by
  constructor
  · intro h
    unfold assessStamp at h
    obtain ⟨hstate, h⟩ := stage_passed h id
    obtain ⟨hobserved, h⟩ := stage_passed h fun _ => nofun
    obtain ⟨hfuture, h⟩ := stage_passed h fun _ => nofun
    obtain ⟨hvalidity, h⟩ := stage_passed h fun _ => nofun
    obtain ⟨hfresh, h⟩ := stage_passed h fun _ => nofun
    obtain ⟨hwindow, h⟩ := stage_passed h fun _ => nofun
    obtain ⟨hnewer, h⟩ := stage_passed h fun _ => nofun
    obtain ⟨hcapacity, h⟩ := stage_passed h fun _ => nofun
    obtain ⟨hprovenance, -⟩ := stage_passed h fun _ => nofun
    refine ⟨⟨not_not.mp hstate, not_not.mp hobserved, fun hn hgt => hfuture ⟨hn, hgt⟩,
      fun hv hn hgt => hvalidity ⟨hv, hn, hgt⟩, fun hp hn hgt => hfresh ⟨hp, hn, hgt⟩,
      fun hw hb => ?_, fun hs hl hle => hnewer ⟨hs, hl, hle⟩⟩, hcapacity, hprovenance⟩
    by_contra hne
    exact hwindow ⟨hw, hb, hne⟩
  · rintro ⟨h, hcapacity, hprovenance⟩
    unfold assessStamp
    simp only
    rw [if_neg (not_not.mpr h.state), if_neg (not_not.mpr h.observed),
      if_neg fun hc => h.notFuture hc.1 hc.2, if_neg fun hc => h.inValidity hc.1 hc.2.1 hc.2.2,
      if_neg fun hc => h.fresh hc.1 hc.2.1 hc.2.2, if_neg fun hc => hc.2.2 (h.window hc.1 hc.2.1),
      if_neg fun hc => h.newer hc.1 hc.2.1 hc.2.2, if_neg hcapacity, if_neg hprovenance]

theorem assessStamp_present {bundle : EvidenceBundle} {policy : GovernorPolicy}
    {last : PerClass UInt64} {klass : EvidenceClass}
    (h : (assessStamp bundle policy last klass).1 = .present) :
    StampPresent bundle policy last klass := (assessStamp_present_iff.mp h).1

/-- Without recorded sequences nothing is reordered. -/
def noSequences : PerClass UInt64 := PerClass.ofFn fun _ => 0

theorem assessStamp_without_sequences {bundle : EvidenceBundle} {policy : GovernorPolicy}
    {last : PerClass UInt64} {klass : EvidenceClass}
    (h : (assessStamp bundle policy last klass).1 = .present) :
    (assessStamp bundle policy noSequences klass).1 = .present := by
  have hzero : noSequences.get klass = 0 := PerClass.get_ofFn _ klass
  obtain ⟨hstamp, hclass⟩ := assessStamp_present_iff.mp h
  exact assessStamp_present_iff.mpr
    ⟨{ hstamp with newer := fun _ hlast => absurd hzero hlast }, hclass⟩

end IncastGovernor
