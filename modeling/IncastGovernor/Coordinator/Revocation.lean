import IncastGovernor.Coordinator.Atomicity
import IncastGovernor.Coordinator.Publishing

/-! Revocations. RevokeAll apart, a section revokes one lease at most: a request the holder it
supersedes, a decision of another epoch the lease it names. Where that was the only live lease,
none is left, unless the request is granted one of its own. -/

namespace IncastGovernor

open Foundation

namespace Coordinator

variable {c c' : Coordinator}

/-- The leases that lose their liveness. -/
def revoked (c c' : Coordinator) (record : LeaseRecord) : Prop :=
  record ∈ c.leases.entries ∧ record.live ∧
    ∀ after ∈ c'.leases.entries, after.key = record.key → ¬after.live

/-- A live record that is still in the table is not revoked. -/
theorem not_revoked_of_mem {record after : LeaseRecord} (hm : after ∈ c'.leases.entries)
    (hk : after.key = record.key) (hl : record.live → after.live) : ¬c.revoked c' record :=
  fun hr => hr.2.2 after hm hk (hl hr.2.1)

theorem not_revoked_of_leases (h : c'.leases = c.leases) (record : LeaseRecord) :
    ¬c.revoked c' record := by
  intro hr
  exact not_revoked_of_mem (h ▸ hr.1) rfl id hr

/-- What a lease request revokes, it claimed. -/
theorem leaseRequest_revokes (h : Sound c) {request : MessageLeaseRequest} {now : Timestamp}
    {order : Enumeration LeaseRecord} {fault : Option AtomicWriteFault}
    (hs : c.perform (.leaseRequest request now order fault) = some c') {record : LeaseRecord}
    (hr : c.revoked c' record) : record.claimedBy request := by
  rcases leaseRequest_kept h hs with hl | hkept
  · exact absurd hr (not_revoked_of_leases hl record)
  · by_contra hfree
    have hsame : c.claimRecord request now record = record := if_neg hfree
    have hmem := hkept record hr.1
    rw [hsame] at hmem
    exact not_revoked_of_mem hmem rfl id hr

theorem leaseRenew_revokes_none (renew : MessageLeaseRenew) (now : Timestamp)
    (record : LeaseRecord) : ¬c.revoked (c.renewLease renew now).1 record := by
  intro hr
  rcases renewLease_cases c renew now with ⟨denied, hrenew⟩ | ⟨renewed, -, -, -, -, hrenew⟩
  · exact not_revoked_of_leases (by rw [hrenew]) record hr
  · have hmem : (if record.key = renew.lease.value then record.renew now (c.expiry now)
        else record) ∈ (c.renewLease renew now).1.leases.entries := by
      rw [hrenew]
      exact (KeyedTable.mem_modify (h := fun r => r.renew_key now (c.expiry now))).mpr
        ⟨record, hr.1, rfl⟩
    refine not_revoked_of_mem hmem ?_ ?_ hr
    · split_ifs <;> rfl
    · split_ifs <;> exact id

/-- A publication revokes no lease but the one it names. -/
theorem decisionPublish_revokes {publish : MessageDecisionPublish} {now : Timestamp}
    {record : LeaseRecord} (hr : c.revoked (c.publishDecision publish now).1 record) :
    record.key = publish.lease.value := by
  by_contra hother
  have hmem : record ∈ (c.publishDecision publish now).1.leases.entries :=
    publishDecision_mem.mpr ⟨record, hr.1, if_neg hother⟩
  exact not_revoked_of_mem hmem rfl id hr

/-- A section other than RevokeAll revokes one lease at most. -/
theorem revoked_alone (h : Sound c) {s : Section} (hs : c.perform s = some c')
    (hn : ∀ request fault, s = .control request fault → c.tokenAccepted request →
      request.opcode ≠ .revokeAll) {a b : LeaseRecord} (ha : c.revoked c' a)
    (hb : c.revoked c' b) : a.key = b.key := by
  cases s with
  | leaseRequest request now order fault =>
    have hda := (leaseRequest_revokes h hs ha).1
    have hdb := (leaseRequest_revokes h hs hb).1
    exact h.exclusive a ha.1 b hb.1 ha.2.1 hb.2.1 (hda.trans hdb.symm)
  | leaseRenew renew now =>
    obtain rfl := Option.some.inj hs
    exact absurd ha (leaseRenew_revokes_none renew now a)
  | decisionPublish publish now =>
    obtain rfl := Option.some.inj hs
    exact (decisionPublish_revokes ha).trans (decisionPublish_revokes hb).symm
  | control request fault =>
    obtain rfl := Option.some.inj hs
    have hby := handleControl_by c request fault
    generalize (c.handleControl request fault).1 = next at hby ha
    cases hby with
    | unchanged other => exact absurd ha (not_revoked_of_leases rfl a)
    | advanced accepted opcode =>
      exact absurd ha (not_revoked_of_leases (advanceEpoch_leases c fault).1 a)
    | revoked accepted opcode => exact absurd opcode (hn request fault rfl accepted)
  | advanceEpoch fault =>
    obtain rfl := Option.some.inj hs
    exact absurd ha (not_revoked_of_leases (advanceEpoch_leases c fault).1 a)
  | _ =>
    obtain rfl := Option.some.inj hs
    exact absurd ha (not_revoked_of_leases rfl a)

/-! ### All leases -/

/-- Some lease was live, and none is left. -/
def revokesAll (c c' : Coordinator) : Prop :=
  (∃ record ∈ c.leases.entries, record.live) ∧ ∀ record ∈ c'.leases.entries, ¬record.live

/-- The record is of a live lease, and no other lease is live. -/
def onlyLive (c : Coordinator) (record : LeaseRecord) : Prop :=
  record ∈ c.leases.entries ∧ record.live ∧
    ∀ other ∈ c.leases.entries, other.live → other.key = record.key

/-- The section revokes the only live lease, and leaves none: a decision of another epoch names
it, or a request supersedes its holder and cannot store the next epoch. -/
def revokesLast (c : Coordinator) : Section → Prop
  | .decisionPublish publish _ =>
    publish.epoch ≠ c.epoch ∧ ∃ record, c.onlyLive record ∧ record.key = publish.lease.value
  | .leaseRequest request _ _ fault =>
    c.ledgerOpen = true ∧ ¬c.storable fault ∧ wellFormed request ∧
      ∃ record, c.onlyLive record ∧ record.claimedBy request ∧
        ¬record.heldBy request.boot request.worker
  | _ => False

theorem revokesAll.revoked (h : c.revokesAll c') {record : LeaseRecord}
    (hm : record ∈ c.leases.entries) (hl : record.live) : c.revoked c' record :=
  ⟨hm, hl, fun after hafter _ => h.2 after hafter⟩

theorem not_revokesAll_of_live {record : LeaseRecord} (hm : record ∈ c'.leases.entries)
    (hl : record.live) : ¬c.revokesAll c' := fun h => h.2 record hm hl

theorem not_revokesAll_of_leases (h : c'.leases = c.leases) : ¬c.revokesAll c' := by
  rintro ⟨⟨record, hm, hl⟩, hnone⟩
  exact hnone record (h ▸ hm) hl

/-- A section that revokes one lease at most revokes all only if one is live. -/
theorem revokesAll.onlyLive (h : c.revokesAll c')
    (halone : ∀ a b, c.revoked c' a → c.revoked c' b → a.key = b.key) :
    ∃ record, c.onlyLive record ∧ c.revoked c' record := by
  obtain ⟨record, hm, hl⟩ := h.1
  have hrecord := h.revoked hm hl
  exact ⟨record, ⟨hm, hl, fun other ho hlive => halone other record (h.revoked ho hlive) hrecord⟩,
    hrecord⟩

/-- What is left of a table without live leases but for one, when that one is revoked. -/
theorem onlyLive.revokesAll {record : LeaseRecord} (h : c.onlyLive record)
    {f : LeaseRecord → LeaseRecord} (hf : ∀ a : LeaseRecord, a.evolvesTo (f a))
    (hrevoked : ∀ a ∈ c.leases.entries, a.key = record.key → ¬(f a).live)
    (hleft : ∀ b ∈ c'.leases.entries, ∃ a ∈ c.leases.entries, f a = b) : c.revokesAll c' := by
  refine ⟨⟨record, h.1, h.2.1⟩, fun b hb hlive => ?_⟩
  obtain ⟨a, ha, rfl⟩ := hleft b hb
  exact hrevoked a ha (h.2.2 a ha ((hf a).live hlive)) hlive

section Sections

variable {request : MessageLeaseRequest} {now : Timestamp} {order : Enumeration LeaseRecord}
  {fault : Option AtomicWriteFault} {publish : MessageDecisionPublish}

theorem onlyLive.record_eq {record other : LeaseRecord} (h : c.onlyLive record)
    (hm : other ∈ c.leases.entries) (hk : other.key = record.key) : other = record :=
  KeyedTable.eq_of_key_eq hm h.1 hk

/-- A decision of another epoch revokes the only live lease. -/
theorem publish_revokesAll (h : c.revokesLast (.decisionPublish publish now)) :
    c.revokesAll (c.publishDecision publish now).1 := by
  obtain ⟨hepoch, record, honly, hkey⟩ := h
  refine honly.revokesAll (f := fun a =>
    if a.key = publish.lease.value then c.publishRecord publish now a else a) (fun a => ?_)
    (fun a ha hk => ?_) fun b hb => publishDecision_mem.mp hb
  · split_ifs
    · exact evolvesTo_publishRecord c publish now a
    · exact LeaseRecord.evolvesTo.refl a
  · obtain rfl := honly.record_eq ha hk
    simp only [if_pos hkey]
    rw [publishRecord, if_pos ⟨honly.2.1, hepoch⟩]
    exact a.not_live_revoke

theorem publish_revokesLast (h : c.revokesAll (c.publishDecision publish now).1) :
    c.revokesLast (.decisionPublish publish now) := by
  obtain ⟨record, honly, hrevoked⟩ := h.onlyLive fun a b ha hb =>
    (decisionPublish_revokes ha).trans (decisionPublish_revokes hb).symm
  have hkey := decisionPublish_revokes hrevoked
  refine ⟨fun hepoch => ?_, record, honly, hkey⟩
  refine h.2 _ (publishDecision_mem.mpr ⟨record, honly.1, rfl⟩) ?_
  rw [if_pos hkey, publishRecord, if_neg fun hc => hc.2 hepoch]
  split_ifs
  · exact honly.2.1
  · exact honly.2.1

/-- A request whose write fails revokes the holder it supersedes. -/
theorem leaseRequest_revokesAll (h : Steady c)
    (hl : c.revokesLast (.leaseRequest request now order fault)) :
    ∃ c', c.perform (.leaseRequest request now order fault) = some c' ∧ c.revokesAll c' := by
  obtain ⟨hopen, hstorable, hvalid, record, honly, hclaimed, hforeign⟩ := hl
  obtain ⟨error, herror⟩ := Option.ne_none_iff_exists'.mp
    fun hnone => hstorable ((storeError_eq_none_iff (h.path hopen)).mp hnone)
  have hgrant := @grantLease_unpersisted c h.sound hopen request now order fault
    ⟨hvalid, record, honly.1, hclaimed, hforeign⟩ error herror
  refine ⟨_, congrArg (Option.map Prod.fst) hgrant, ?_⟩
  refine honly.revokesAll (evolvesTo_claimRecord c request now) (fun a ha hk => ?_) fun b hb => ?_
  · obtain rfl := honly.record_eq ha hk
    rw [claimRecord, if_pos hclaimed, if_neg hforeign]
    exact a.not_live_revoke
  · exact List.mem_map.mp ((advanced_entries h.sound.exclusive).subset hb)

theorem leaseRequest_revokesLast (h : Steady c)
    (hs : c.perform (.leaseRequest request now order fault) = some c') (ha : c.revokesAll c') :
    c.revokesLast (.leaseRequest request now order fault) := by
  obtain ⟨record, honly, hrevoked⟩ := ha.onlyLive fun a b hra hrb =>
    h.sound.exclusive a hra.1 b hrb.1 hra.2.1 hrb.2.1
      ((leaseRequest_revokes h.sound hs hra).1.trans (leaseRequest_revokes h.sound hs hrb).1.symm)
  have hclaimed := leaseRequest_revokes h.sound hs hrevoked
  obtain ⟨result, hresult, rfl⟩ := Option.map_eq_some_iff.mp hs
  have hby := @grantLease_by c request now order fault h.sound.exclusive
  have hadvanced := @advanced_entries c request now order fault h.sound.exclusive
  rw [hresult] at hby
  generalize ho : some result = outcome at hby
  cases hby with
  | refused invalid error =>
    rw [Option.some.inj ho] at ha
    exact absurd ha (not_revokesAll_of_leases rfl)
  | refreshed valid other mem claimedBy held =>
    rw [Option.some.inj ho] at ha
    have hrefreshed : c.claimRecord request now other ∈
        (c.claimed request now order).leases.entries :=
      (claimed_entries h.sound.exclusive).symm.subset (List.mem_map_of_mem mem)
    refine absurd ha (not_revokesAll_of_live hrefreshed ?_)
    rw [claimRecord, if_pos claimedBy, if_pos held]
    exact claimedBy.2
  | unpersisted valid other mem claimedBy foreign error failed =>
    have hsame := honly.record_eq mem (honly.2.2 other mem claimedBy.2)
    rw [hsame] at foreign
    have hopen : c.ledgerOpen = true := by
      by_contra hclosed
      unfold advanceEpoch persistEpoch at failed
      rw [if_neg (show ¬(c.claimed request now order).bumpEpoch.ledgerOpen = true from hclosed)]
        at failed
      cases failed
    have herror : c.storeError fault = some error :=
      (storeError_eq_some (c := c.claimed request now order) hopen).mpr failed
    refine ⟨hopen, fun hstorable => ?_, valid, record, honly, hclaimed, foreign⟩
    rw [(storeError_eq_none_iff (h.path hopen)).mpr hstorable] at herror
    cases herror
  | superseding valid other mem claimedBy foreign stored =>
    obtain ⟨room, rfl⟩ := issueLease_eq_some ho.symm
    have hentered := entered_entries h.sound hadvanced (advanceEpoch_leases _ fault).2
    refine absurd ha (not_revokesAll_of_live
      (hentered ▸ List.mem_append_right _ (List.mem_singleton_self _)) ?_)
    unfold LeaseRecord.live
    rfl
  | fresh valid free =>
    exact absurd hclaimed (free record honly.1)

end Sections

/-- A section other than RevokeAll leaves no lease live exactly if it revokes the only one. -/
theorem revokesLast_of_revokesAll (h : Steady c) {s : Section} (hs : c.perform s = some c')
    (hn : ∀ request fault, s = .control request fault → c.tokenAccepted request →
      request.opcode ≠ .revokeAll) (ha : c.revokesAll c') : c.revokesLast s := by
  cases s with
  | leaseRequest request now order fault => exact leaseRequest_revokesLast h hs ha
  | decisionPublish publish now =>
    obtain rfl := Option.some.inj hs
    exact publish_revokesLast ha
  | leaseRenew renew now =>
    obtain rfl := Option.some.inj hs
    obtain ⟨record, hm, hl⟩ := ha.1
    exact absurd (ha.revoked hm hl) (leaseRenew_revokes_none renew now record)
  | control request fault =>
    obtain rfl := Option.some.inj hs
    have hby := handleControl_by c request fault
    generalize (c.handleControl request fault).1 = next at hby ha
    cases hby with
    | unchanged other => exact absurd ha (not_revokesAll_of_leases rfl)
    | advanced accepted opcode =>
      exact absurd ha (not_revokesAll_of_leases (advanceEpoch_leases c fault).1)
    | revoked accepted opcode => exact absurd opcode (hn request fault rfl accepted)
  | advanceEpoch fault =>
    obtain rfl := Option.some.inj hs
    exact absurd ha (not_revokesAll_of_leases (advanceEpoch_leases c fault).1)
  | _ =>
    obtain rfl := Option.some.inj hs
    exact absurd ha (not_revokesAll_of_leases rfl)

/-- The converse: such a section is performed, and leaves no lease live. -/
theorem revokesAll_of_revokesLast (h : Steady c) {s : Section} (hl : c.revokesLast s) :
    ∃ c', c.perform s = some c' ∧ c.revokesAll c' := by
  cases s with
  | leaseRequest request now order fault => exact leaseRequest_revokesAll h hl
  | decisionPublish publish now => exact ⟨_, rfl, publish_revokesAll hl⟩
  | _ => exact hl.elim

end Coordinator

end IncastGovernor
