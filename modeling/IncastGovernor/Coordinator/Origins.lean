import IncastGovernor.Coordinator.Fencing

/-! Where the records of the lease table come from. A section enters a fresh record, or makes each
of its records out of one that was there: what the claim of a request, a renewal, a decision or a
revocation makes of it. -/

namespace IncastGovernor

open Foundation

namespace Coordinator

variable {c c' : Coordinator} {s : Section}

/-- The ways a record behind a section comes about. -/
inductive Origin (c : Coordinator) (s : Section) (b : LeaseRecord) : Prop
  | fresh (entered : b = { grant := b.grant })
  | kept (mem : b ∈ c.leases.entries)
  | claimed (a : LeaseRecord) (mem : a ∈ c.leases.entries) (request : MessageLeaseRequest)
      (now : Timestamp) (valid : wellFormed request)
      (requested : ∃ order fault, s = .leaseRequest request now order fault)
      (made : b = c.claimRecord request now a)
  | renewed (a : LeaseRecord) (mem : a ∈ c.leases.entries) (live : a.live) (now expires : Timestamp)
      (made : b = a.renew now expires)
  | decided (a : LeaseRecord) (mem : a ∈ c.leases.entries) (publish : MessageDecisionPublish)
      (now : Timestamp) (published : s = .decisionPublish publish now)
      (key : a.key = publish.lease.value) (made : b = c.publishRecord publish now a)
  | revoked (a : LeaseRecord) (mem : a ∈ c.leases.entries) (advances : c.advances s)
      (made : b = a.revoke)

theorem leaseRequest_origin (h : Sound c) {request : MessageLeaseRequest} {now : Timestamp}
    {order : Enumeration LeaseRecord} {fault : Option AtomicWriteFault}
    (hs : c.perform (.leaseRequest request now order fault) = some c') {b : LeaseRecord}
    (hb : b ∈ c'.leases.entries) : c.Origin (.leaseRequest request now order fault) b := by
  have hby := leaseRequest_by h.exclusive hs
  generalize c.granted (.leaseRequest request now order fault) = sent at hby
  have hclaimed := @claimed_entries c request now order h.exclusive
  have hadvanced := @advanced_entries c request now order fault h.exclusive
  have hnext := (advanceEpoch_leases (c.claimed request now order) fault).2
  have hmade : ∀ xs : List LeaseRecord, xs.Perm (c.leases.entries.map (c.claimRecord request now)) →
      wellFormed request → b ∈ xs → c.Origin (.leaseRequest request now order fault) b := by
    intro xs hxs hv hm
    obtain ⟨a, ha, rfl⟩ := List.mem_map.mp (hxs.subset hm)
    exact .claimed a ha request now hv ⟨order, fault, rfl⟩ rfl
  cases hby with
  | refused hinv => exact .kept hb
  | refreshed hv record mem hcl hh => exact hmade _ hclaimed hv hb
  | unpersisted hv record mem hcl hf => exact hmade _ hadvanced hv hb
  | superseding hv record mem hcl hf =>
    rw [entered_entries h hadvanced hnext, List.mem_append, List.mem_singleton] at hb
    rcases hb with hb | rfl
    · exact hmade _ hadvanced hv hb
    · exact .fresh rfl
  | fresh hv hfree =>
    rw [entered_entries h hclaimed rfl, List.mem_append, List.mem_singleton] at hb
    rcases hb with hb | rfl
    · exact hmade _ hclaimed hv hb
    · exact .fresh rfl

/-- Every record behind a section has its origin before it. -/
theorem perform_origin (h : Sound c) (hs : c.perform s = some c') {b : LeaseRecord}
    (hb : b ∈ c'.leases.entries) : c.Origin s b := by
  cases s with
  | leaseRequest request now order fault => exact leaseRequest_origin h hs hb
  | leaseRenew renew now =>
    obtain rfl := Option.some.inj hs
    rcases renewLease_cases c renew now with ⟨denied, hr⟩ | ⟨record, hfind, hlive, -, -, hr⟩
    · rw [hr] at hb
      exact .kept hb
    · rw [hr] at hb
      obtain ⟨a, hm, rfl⟩ :=
        (KeyedTable.mem_modify (h := fun r => r.renew_key now (c.expiry now))).mp hb
      obtain ⟨hmem, hkey⟩ := KeyedTable.find_eq_some.mp hfind
      by_cases hk : a.key = renew.lease.value
      · rw [← KeyedTable.eq_of_key_eq hm hmem (hk.trans hkey.symm)] at hlive
        rw [if_pos hk]
        exact .renewed a hm hlive now _ rfl
      · rw [if_neg hk]
        exact .kept hm
  | decisionPublish publish now =>
    obtain rfl := Option.some.inj hs
    obtain ⟨a, hm, rfl⟩ := publishDecision_mem.mp hb
    by_cases hk : a.key = publish.lease.value
    · rw [if_pos hk]
      exact .decided a hm publish now rfl hk rfl
    · rw [if_neg hk]
      exact .kept hm
  | control request fault =>
    obtain rfl := Option.some.inj hs
    have hby := handleControl_by c request fault
    generalize (c.handleControl request fault).1 = next at hby hb
    cases hby with
    | unchanged other => exact .kept hb
    | advanced accepted opcode =>
      rw [(advanceEpoch_leases c fault).1] at hb
      exact .kept hb
    | revoked accepted opcode =>
      obtain ⟨a, hm, rfl⟩ := List.mem_map.mp hb
      exact .revoked a hm ⟨accepted, Or.inr opcode⟩ rfl
  | advanceEpoch fault =>
    obtain rfl := Option.some.inj hs
    change b ∈ (c.advanceEpoch fault).1.leases.entries at hb
    rw [(advanceEpoch_leases c fault).1] at hb
    exact .kept hb
  | _ =>
    obtain rfl := Option.some.inj hs
    exact .kept hb

end Coordinator

end IncastGovernor
