import IncastGovernor.Core.Codec
import IncastGovernor.Policy.Document

/-! The digest of a policy document: a checksum of its fields as the codec writes them. The two
caps of the streaks and the provenance switch are not among them. Documents that hash the same
bytes agree in all other fields, and validation ties the switch to the required classes. -/

namespace IncastGovernor

namespace GovernorPolicy

open Codec

/-- The bytes that are hashed. -/
def digestBytes (policy : GovernorPolicy) : Text :=
  [writeU64 policy.id.value,
    writeU64 policy.generation.value,
    writeStr policy.name,
    writeBool policy.enabled,
    writeU32 policy.synchronization.manyToOneMinSenders,
    writeU32 policy.synchronization.minSynchronizedSenders,
    writeI64 policy.synchronization.syncWindowBound.nanos,
    writeU32 policy.synchronization.syncIndexThresholdBp,
    writeU32 policy.synchronization.minAggregateShareBp,
    writeU32 policy.pressure.riskOversubscriptionBp,
    writeU32 policy.pressure.collapseOversubscriptionBp,
    writeU32 policy.pressure.activeQueuePressureBp,
    writeU32 policy.pressure.congestionQueuePressureBp,
    writeU64 policy.pressure.dropEventsForActive,
    writeU32 policy.pressure.headroomWarningBp,
    writeBool policy.recovery.enabled,
    writeU32 policy.recovery.requiredCleanWindows,
    writeI64 policy.recovery.dwell.nanos,
    writeU32 policy.recovery.relaxOversubscriptionBp,
    writeU32 policy.recovery.relaxQueuePressureBp,
    writeU64 policy.recovery.maxDropsDuringRecovery,
    writeBool policy.recovery.requireCapacityRevalidation,
    writeU32 policy.hysteresis.enterMarginBp,
    writeU32 policy.hysteresis.exitMarginBp,
    writeU32 policy.hysteresis.minDwellWindows,
    writeU64 policy.protection.protectedFloorRate.bytesPerSecond,
    writeU8 (serviceStrength policy.protection.strongestMitigableClass),
    writeBool policy.protection.neverPenalizeExplicitlyProtected,
    writeBool policy.protection.refuseSenderScopeWhenPopulationSaturated,
    writeBool policy.protection.escalateInsteadOfViolatingFloor,
    writeU32 policy.bounds.minReductionBp,
    writeU32 policy.bounds.maxReductionBp,
    writeU32 policy.bounds.maxAdmissionReductionBp,
    writeU64 policy.bounds.maxHeadroomBytes.count,
    writeI64 policy.bounds.minDuration.nanos,
    writeI64 policy.bounds.maxDuration.nanos,
    writeU64 policy.bounds.maxPenalizedSenders,
    writeU32 policy.bounds.maxStaggerSlots,
    EvidenceClass.all.flatMap fun klass => writeBool (policy.authority.requiredClasses.get klass),
    writeBool policy.authority.requireValidLease,
    writeBool policy.authority.requireMatchingEpoch,
    writeBool policy.authority.requireMatchingBoot,
    writeBool policy.authority.refuseOnIdentityCollision,
    writeBool policy.authority.refuseOnEventMismatch,
    writeU64 policy.authority.maxFreshnessHorizonNanos].flatten

def digest (policy : GovernorPolicy) : UInt64 := (crc32c policy.digestBytes).toUInt64

/-- The document with other caps of its streaks. -/
def withCaps (policy : GovernorPolicy) (maxIncidentWindows maxCleanWindows : UInt32) :
    GovernorPolicy :=
  { policy with hysteresis := { policy.hysteresis with maxIncidentWindows, maxCleanWindows } }

/-- The digest does not see the caps. -/
theorem digest_withCaps (policy : GovernorPolicy) (maxIncidentWindows maxCleanWindows : UInt32) :
    (policy.withCaps maxIncidentWindows maxCleanWindows).digest = policy.digest := rfl

/-- What the digest and its comparison need of a validated document. -/
structure Validated (policy : GovernorPolicy) : Prop where
  name : policy.name.length ≤ kMaxIdentifierChars * 8
  many : 2 ≤ policy.synchronization.manyToOneMinSenders
  dwell : policy.hysteresis.minDwellWindows ≠ 0
  horizon : policy.authority.maxFreshnessHorizonNanos ≠ 0
  provenance :
    policy.authority.requireProvenance = policy.authority.requiredClasses.provenance

theorem validated_of_validate {policy : GovernorPolicy} (h : policy.validate = .ok ()) :
    policy.Validated := by
  unfold validate at h
  -- the identity and the name
  iterate 2 obtain ⟨-, h⟩ := of_check_ok h
  obtain ⟨hname, h⟩ := of_check_ok h
  obtain ⟨hmany, h⟩ := of_check_ok h
  -- the other synchronization thresholds, pressure and recovery
  iterate 8 obtain ⟨-, h⟩ := of_check_ok h
  have h := of_checks_ok h fun h => (of_check_ok (of_check_ok h).2).2
  obtain ⟨hdwell, h⟩ := of_check_ok h
  -- the caps and the mitigation bounds
  iterate 9 obtain ⟨-, h⟩ := of_check_ok h
  obtain ⟨hhorizon, h⟩ := of_check_ok h
  have hprovenance : ¬policy.authority.requireProvenance ≠
      policy.authority.requiredClasses.provenance := by
    intro hne
    rw [if_pos hne] at h
    cases h
  refine ⟨?_, UInt32.not_lt.mp hmany, hdwell, hhorizon, not_not.mp hprovenance⟩
  have hle := Nat.not_lt.mp fun hlt => hname (Or.inr hlt)
  exact hle.trans (by decide)

theorem serviceStrength_inj {a b : ServiceClass} : serviceStrength a = serviceStrength b ↔ a = b :=
  ⟨fun h => by cases a <;> cases b <;> first | rfl | exact absurd h (by decide),
    congrArg serviceStrength⟩

theorem requiredClasses_inj {a b : PerClass Bool} {first second : Text} :
    (EvidenceClass.all.flatMap fun klass => writeBool (a.get klass)) ++ first =
        (EvidenceClass.all.flatMap fun klass => writeBool (b.get klass)) ++ second ↔
      a = b ∧ first = second := by
  have hall : EvidenceClass.all.map a.get = EvidenceClass.all.map b.get ↔ a = b := by
    constructor
    · intro h
      rw [List.map_inj_left] at h
      obtain ⟨⟩ := a
      obtain ⟨⟩ := b
      rw [PerClass.mk.injEq]
      exact ⟨h .fanIn (EvidenceClass.mem_all _), h .arrivalTiming (EvidenceClass.mem_all _),
        h .aggregateRate (EvidenceClass.mem_all _), h .destination (EvidenceClass.mem_all _),
        h .capacity (EvidenceClass.mem_all _), h .queue (EvidenceClass.mem_all _),
        h .service (EvidenceClass.mem_all _), h .provenance (EvidenceClass.mem_all _)⟩
    · rintro rfl
      rfl
  have hwrites : ∀ c : PerClass Bool, (EvidenceClass.all.flatMap fun klass =>
      writeBool (c.get klass)) = (EvidenceClass.all.map c.get).flatMap writeBool :=
    fun c => (List.flatMap_map ..).symm
  rw [hwrites, hwrites, flatMap_append_inj (fun _ _ _ _ => writeBool_append_inj) (by simp), hall]

/-- Validated documents that hash the same bytes differ in the caps of their streaks only. -/
theorem eq_withCaps_of_digestBytes {p q : GovernorPolicy} (hp : p.Validated) (hq : q.Validated)
    (h : p.digestBytes = q.digestBytes) :
    q = p.withCaps q.hysteresis.maxIncidentWindows q.hysteresis.maxCleanWindows := by
  simp only [digestBytes, List.flatten_cons, writeU64_append_inj,
    writeStr_append_inj hp.name hq.name, writeBool_append_inj, writeU32_append_inj,
    writeI64_append_inj, writeU8_append_inj, serviceStrength_inj, requiredClasses_inj] at h
  have hprovenance := hp.provenance
  have hprovenance' := hq.provenance
  obtain ⟨⟨_⟩, ⟨_⟩, _, _, ⟨_, _, ⟨_⟩, _, _⟩, ⟨⟩, ⟨_, _, ⟨_⟩, _, _, _, _⟩, ⟨⟩, ⟨⟨_⟩, _, _, _, _⟩,
    ⟨_, _, _, ⟨_⟩, ⟨_⟩, ⟨_⟩, _, _⟩, ⟨⟩⟩ := p
  obtain ⟨⟨_⟩, ⟨_⟩, _, _, ⟨_, _, ⟨_⟩, _, _⟩, ⟨⟩, ⟨_, _, ⟨_⟩, _, _, _, _⟩, ⟨⟩, ⟨⟨_⟩, _, _, _, _⟩,
    ⟨_, _, _, ⟨_⟩, ⟨_⟩, ⟨_⟩, _, _⟩, ⟨⟩⟩ := q
  simp_all only [withCaps]

end GovernorPolicy

end IncastGovernor
