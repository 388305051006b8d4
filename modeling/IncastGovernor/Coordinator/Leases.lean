import IncastGovernor.Coordinator.Server

/-! Mutual exclusion of leases. A record of the table keeps its id, its destination and
its holder, and a revoked one stays revoked. At most one record of a destination is
live; this makes the loop of `grantLease` independent of the iteration order, and a
record that enters the table finds every other one of its destination revoked. -/

namespace IncastGovernor

open Foundation

/-- One record later in a run: the same lease, live only if it was. -/
structure LeaseRecord.evolvesTo (a b : LeaseRecord) : Prop where
  key : b.key = a.key
  destination : b.grant.destination = a.grant.destination
  boot : b.grant.boot = a.grant.boot
  worker : b.grant.worker = a.grant.worker
  live : b.live → a.live

namespace LeaseRecord

variable {a b d : LeaseRecord}

theorem evolvesTo.refl (a : LeaseRecord) : a.evolvesTo a := ⟨rfl, rfl, rfl, rfl, id⟩

theorem evolvesTo.trans (h : a.evolvesTo b) (h' : b.evolvesTo d) : a.evolvesTo d :=
  ⟨h'.key.trans h.key, h'.destination.trans h.destination, h'.boot.trans h.boot,
    h'.worker.trans h.worker, fun hl => h.live (h'.live hl)⟩

theorem evolvesTo_revoke (a : LeaseRecord) : a.evolvesTo a.revoke :=
  ⟨rfl, rfl, rfl, rfl, fun h => absurd h (by simp [revoke, LeaseRecord.live])⟩

theorem evolvesTo_refresh (a : LeaseRecord) (attempt : UInt64) (now expires : Timestamp)
    (epoch : EpochId) : a.evolvesTo (a.refresh attempt now expires epoch) :=
  ⟨rfl, rfl, rfl, rfl, id⟩

theorem evolvesTo_renew (a : LeaseRecord) (now expires : Timestamp) :
    a.evolvesTo (a.renew now expires) := ⟨rfl, rfl, rfl, rfl, id⟩

@[simp] theorem not_live_revoke (a : LeaseRecord) : ¬a.revoke.live := by simp [live, revoke]

end LeaseRecord

/-- Live records of one destination are the same lease. -/
def exclusiveRecords (records : List LeaseRecord) : Prop :=
  ∀ a ∈ records, ∀ b ∈ records, a.live → b.live → a.grant.destination = b.grant.destination →
    a.key = b.key

theorem exclusiveRecords.of_perm {xs ys : List LeaseRecord} (h : exclusiveRecords xs)
    (hp : ys.Perm xs) : exclusiveRecords ys :=
  fun a ha b hb => h a (hp.subset ha) b (hp.subset hb)

theorem exclusiveRecords.map {records : List LeaseRecord} (h : exclusiveRecords records)
    {f : LeaseRecord → LeaseRecord} (hf : ∀ a : LeaseRecord, a.evolvesTo (f a)) :
    exclusiveRecords (records.map f) := by
  intro x hx y hy hlx hly hd
  obtain ⟨a, ha, rfl⟩ := List.mem_map.mp hx
  obtain ⟨b, hb, rfl⟩ := List.mem_map.mp hy
  rw [(hf a).destination, (hf b).destination] at hd
  rw [(hf a).key, (hf b).key]
  exact h a ha b hb ((hf a).live hlx) ((hf b).live hly) hd

namespace Coordinator

variable {c c' c'' : Coordinator}

/-! ### The loop of a grant -/

section Claim

variable {request : MessageLeaseRequest} {now : Timestamp}

/-- What the loop does to one record. -/
def claimRecord (c : Coordinator) (request : MessageLeaseRequest) (now : Timestamp)
    (record : LeaseRecord) : LeaseRecord :=
  if record.claimedBy request then
    if record.heldBy request.boot request.worker then
      record.refresh request.attempt now (c.expiry now) c.epoch
    else record.revoke
  else record

theorem evolvesTo_claimRecord (c : Coordinator) (request : MessageLeaseRequest) (now : Timestamp)
    (record : LeaseRecord) : record.evolvesTo (c.claimRecord request now record) := by
  unfold claimRecord
  split_ifs
  · exact record.evolvesTo_refresh _ _ _ _
  · exact record.evolvesTo_revoke
  · exact LeaseRecord.evolvesTo.refl record

/-- How the loop ends: with the refreshed grant, with a revoked holder, or without a
record of the destination. -/
inductive ClaimedBy (c : Coordinator) (request : MessageLeaseRequest) (now : Timestamp)
    (records : List LeaseRecord) : Bool × Option MessageLeaseGrant → Prop
  | refreshed (record : LeaseRecord) (mem : record ∈ records) (claimed : record.claimedBy request)
      (held : record.heldBy request.boot request.worker) :
      ClaimedBy c request now records (false,
        some (record.refresh request.attempt now (c.expiry now) c.epoch).grant)
  | superseded (record : LeaseRecord) (mem : record ∈ records) (claimed : record.claimedBy request)
      (foreign : ¬record.heldBy request.boot request.worker) :
      ClaimedBy c request now records (true, none)
  | unclaimed (free : ∀ record ∈ records, ¬record.claimedBy request) :
      ClaimedBy c request now records (false, none)

theorem claimRecords_of_free {records : List LeaseRecord}
    (h : ∀ record ∈ records, ¬record.claimedBy request) :
    c.claimRecords request now records = (records, false, none) := by
  induction records with
  | nil => rfl
  | cons record rest ih =>
    have hrest := ih fun r hr => h r (List.mem_cons_of_mem _ hr)
    have hhead : ¬record.claimedBy request := h record List.mem_cons_self
    rw [claimRecords, if_neg hhead, hrest]

theorem map_claimRecord_of_free {records : List LeaseRecord}
    (h : ∀ record ∈ records, ¬record.claimedBy request) :
    records.map (c.claimRecord request now) = records := by
  refine (List.map_congr_left fun record hr => ?_).trans (List.map_id records)
  rw [claimRecord, if_neg (h record hr), id]

/-- Among exclusive records the loop is a map, in whatever order it runs. -/
theorem claimRecords_spec (records : List LeaseRecord)
    (hn : (records.map LeaseRecord.key).Nodup) (hx : exclusiveRecords records) :
    (c.claimRecords request now records).1 = records.map (c.claimRecord request now) ∧
      ClaimedBy c request now records (c.claimRecords request now records).2 := by
  induction records with
  | nil => exact ⟨rfl, ClaimedBy.unclaimed (by simp)⟩
  | cons record rest ih =>
    rw [List.map_cons, List.nodup_cons] at hn
    by_cases hc : record.claimedBy request
    · -- the only record of the destination: the rest is left alone
      have hfree : ∀ r ∈ rest, ¬r.claimedBy request := by
        intro r hr hcr
        have hkey := hx record List.mem_cons_self r (List.mem_cons_of_mem _ hr) hc.2 hcr.2
          (hc.1.trans hcr.1.symm)
        exact hn.1 (hkey ▸ List.mem_map_of_mem hr)
      rw [claimRecords, if_pos hc, List.map_cons, map_claimRecord_of_free hfree, claimRecord,
        if_pos hc, claimRecords_of_free hfree]
      by_cases hh : record.heldBy request.boot request.worker
      · rw [if_pos hh, if_pos hh]
        exact ⟨rfl, ClaimedBy.refreshed record List.mem_cons_self hc hh⟩
      · rw [if_neg hh, if_neg hh]
        exact ⟨rfl, ClaimedBy.superseded record List.mem_cons_self hc hh⟩
    · have hrest := ih hn.2 fun a ha b hb =>
        hx a (List.mem_cons_of_mem _ ha) b (List.mem_cons_of_mem _ hb)
      rw [claimRecords, if_neg hc, List.map_cons, claimRecord, if_neg hc]
      obtain ⟨hmap, hby⟩ := hrest
      refine ⟨congrArg (record :: ·) hmap, ?_⟩
      generalize (c.claimRecords request now rest).2 = ending at hby
      cases hby with
      | refreshed r hr hcr hh => exact ClaimedBy.refreshed r (List.mem_cons_of_mem _ hr) hcr hh
      | superseded r hr hcr hh => exact ClaimedBy.superseded r (List.mem_cons_of_mem _ hr) hcr hh
      | unclaimed hfree =>
        refine ClaimedBy.unclaimed fun r hr => ?_
        obtain rfl | hr := List.mem_cons.mp hr
        · exact hc
        · exact hfree r hr

variable {order : Enumeration LeaseRecord} {fault : Option AtomicWriteFault}

theorem claimed_entries (hx : exclusiveRecords c.leases.entries) :
    (c.claimed request now order).leases.entries.Perm
      (c.leases.entries.map (c.claimRecord request now)) := by
  have hp := order.perm c.leases.entries
  have hn := ((hp.map LeaseRecord.key).nodup_iff).mpr c.leases.nodup
  have hspec := (@claimRecords_spec c request now _ hn (hx.of_perm hp)).1
  have hmap := hp.map (c.claimRecord request now)
  rw [← hspec] at hmap
  exact hmap

/-- The fields `grant_lease` checks. -/
def wellFormed (request : MessageLeaseRequest) : Prop :=
  request.worker.valid ∧ request.boot.valid ∧ request.destination.valid

instance (request : MessageLeaseRequest) : Decidable (wellFormed request) := by
  delta wellFormed; infer_instance

/-- The ways through `grantLease`. -/
inductive GrantedBy (c : Coordinator) (request : MessageLeaseRequest) (now : Timestamp)
    (order : Enumeration LeaseRecord) (fault : Option AtomicWriteFault) :
    Option (Coordinator × Outcome MessageLeaseGrant) → Prop
  | refused (invalid : ¬wellFormed request) (error : Error) :
      GrantedBy c request now order fault (some (c, .error error))
  | refreshed (valid : wellFormed request) (record : LeaseRecord)
      (mem : record ∈ c.leases.entries) (claimedBy : record.claimedBy request)
      (held : record.heldBy request.boot request.worker) :
      GrantedBy c request now order fault
        (some
          ({ c.claimed request now order with
            statistics := { c.statistics with leasesRenewed := c.statistics.leasesRenewed + 1 } },
            .ok (record.refresh request.attempt now (c.expiry now) c.epoch).grant))
  | unpersisted (valid : wellFormed request) (record : LeaseRecord)
      (mem : record ∈ c.leases.entries) (claimedBy : record.claimedBy request)
      (foreign : ¬record.heldBy request.boot request.worker) (error : Error)
      (failed : ((c.claimed request now order).advanceEpoch fault).2 = .error error) :
      GrantedBy c request now order fault
        (some (((c.claimed request now order).advanceEpoch fault).1, .error error))
  | superseding (valid : wellFormed request) (record : LeaseRecord)
      (mem : record ∈ c.leases.entries) (claimedBy : record.claimedBy request)
      (foreign : ¬record.heldBy request.boot request.worker)
      (stored : ((c.claimed request now order).advanceEpoch fault).2 = .ok ()) :
      GrantedBy c request now order fault
        (((c.claimed request now order).advanceEpoch fault).1.issueLease request now)
  | fresh (valid : wellFormed request)
      (free : ∀ record ∈ c.leases.entries, ¬record.claimedBy request) :
      GrantedBy c request now order fault ((c.claimed request now order).issueLease request now)

theorem grantLease_by (hx : exclusiveRecords c.leases.entries) :
    GrantedBy c request now order fault (c.grantLease request now order fault) := by
  have hp := order.perm c.leases.entries
  have hn := ((hp.map LeaseRecord.key).nodup_iff).mpr c.leases.nodup
  have hby := (@claimRecords_spec c request now _ hn (hx.of_perm hp)).2
  unfold grantLease
  by_cases hw : ¬request.worker.valid ∨ ¬request.boot.valid
  · rw [if_pos hw]
    refine GrantedBy.refused (fun hv => ?_) _
    exact hw.elim (fun h => h hv.1) fun h => h hv.2.1
  rw [if_neg hw]
  by_cases hd : ¬request.destination.valid
  · rw [if_pos hd]
    exact GrantedBy.refused (fun hv => hd hv.2.2) _
  rw [if_neg hd]
  have hv : wellFormed request := by
    push Not at hw hd
    exact ⟨hw.1, hw.2, hd⟩
  generalize (c.claimRecords request now (order.order c.leases.entries)).2 = ending at hby
  cases hby with
  | refreshed record mem hcl hh => exact GrantedBy.refreshed hv record (hp.subset mem) hcl hh
  | superseded record mem hcl hh =>
    simp only [if_true]
    cases hs : ((c.claimed request now order).advanceEpoch fault).2 with
    | error error => exact GrantedBy.unpersisted hv record (hp.subset mem) hcl hh error hs
    | ok u => exact GrantedBy.superseding hv record (hp.subset mem) hcl hh hs
  | unclaimed hfree => exact GrantedBy.fresh hv fun record hm => hfree record (hp.symm.subset hm)

/-- The coordinator with a fresh lease entered in its table. -/
def entered (c : Coordinator) (request : MessageLeaseRequest) (now : Timestamp) : Coordinator :=
  { c with
    nextLease := c.nextLease + 1
    leases := c.leases.emplace { grant := c.freshGrant request now }
    statistics := { c.statistics with leasesGranted := c.statistics.leasesGranted + 1 } }

theorem issueLease_eq_some {start : Coordinator} {result : Coordinator × Outcome MessageLeaseGrant}
    (h : start.issueLease request now = some result) :
    start.leases.entries.length < kLeaseTableMax ∧
      result = (start.entered request now, .ok (start.freshGrant request now)) := by
  unfold issueLease at h
  split_ifs at h with hfull
  exact ⟨Nat.lt_of_not_le hfull, (Option.some.inj h).symm⟩

/-- What a request that the process survives leaves, and the grant it is answered with. -/
inductive RequestedBy (c : Coordinator) (request : MessageLeaseRequest) (now : Timestamp)
    (order : Enumeration LeaseRecord) (fault : Option AtomicWriteFault) :
    Coordinator → Option MessageLeaseGrant → Prop
  | refused (invalid : ¬wellFormed request) : RequestedBy c request now order fault c none
  | refreshed (valid : wellFormed request) (record : LeaseRecord)
      (mem : record ∈ c.leases.entries) (claimedBy : record.claimedBy request)
      (held : record.heldBy request.boot request.worker) :
      RequestedBy c request now order fault
        { c.claimed request now order with
          statistics := { c.statistics with leasesRenewed := c.statistics.leasesRenewed + 1 } }
        (some (record.refresh request.attempt now (c.expiry now) c.epoch).grant)
  | unpersisted (valid : wellFormed request) (record : LeaseRecord)
      (mem : record ∈ c.leases.entries) (claimedBy : record.claimedBy request)
      (foreign : ¬record.heldBy request.boot request.worker) :
      RequestedBy c request now order fault ((c.claimed request now order).advanceEpoch fault).1 none
  | superseding (valid : wellFormed request) (record : LeaseRecord)
      (mem : record ∈ c.leases.entries) (claimedBy : record.claimedBy request)
      (foreign : ¬record.heldBy request.boot request.worker)
      (stored : ((c.claimed request now order).advanceEpoch fault).2 = .ok ())
      (room : ((c.claimed request now order).advanceEpoch fault).1.leases.entries.length <
        kLeaseTableMax) :
      RequestedBy c request now order fault
        (((c.claimed request now order).advanceEpoch fault).1.entered request now)
        (some (((c.claimed request now order).advanceEpoch fault).1.freshGrant request now))
  | fresh (valid : wellFormed request)
      (free : ∀ record ∈ c.leases.entries, ¬record.claimedBy request)
      (room : (c.claimed request now order).leases.entries.length < kLeaseTableMax) :
      RequestedBy c request now order fault ((c.claimed request now order).entered request now)
        (some ((c.claimed request now order).freshGrant request now))

theorem leaseRequest_by (hx : exclusiveRecords c.leases.entries)
    (hs : c.perform (.leaseRequest request now order fault) = some c') :
    RequestedBy c request now order fault c'
      (c.granted (.leaseRequest request now order fault)) := by
  obtain ⟨result, hresult, rfl⟩ := Option.map_eq_some_iff.mp hs
  have hby := @grantLease_by c request now order fault hx
  simp only [granted, hresult, Option.bind_some]
  rw [hresult] at hby
  generalize ho : some result = outcome at hby
  cases hby with
  | refused invalid error =>
    rw [Option.some.inj ho]
    exact .refused invalid
  | refreshed valid record mem hcl held =>
    rw [Option.some.inj ho]
    exact .refreshed valid record mem hcl held
  | unpersisted valid record mem hcl foreign error failed =>
    rw [Option.some.inj ho]
    exact .unpersisted valid record mem hcl foreign
  | superseding valid record mem hcl foreign stored =>
    obtain ⟨room, rfl⟩ := issueLease_eq_some ho.symm
    exact .superseding valid record mem hcl foreign stored room
  | fresh valid free =>
    obtain ⟨room, rfl⟩ := issueLease_eq_some ho.symm
    exact .fresh valid free room

end Claim

/-! ### Steps of the table -/

/-- What holds of the lease table of every reachable coordinator. -/
structure Sound (c : Coordinator) : Prop where
  exclusive : exclusiveRecords c.leases.entries
  keys_lt : ∀ a ∈ c.leases.entries, a.key < c.nextLease
  count : c.leases.entries.length + 1 = c.nextLease.toNat
  bounded : c.leases.entries.length ≤ kLeaseTableMax

/-- A section changes the records in place, or changes them and enters one under the
next id after it revoked every other record of the destination. -/
inductive TableStep (c c' : Coordinator) : Prop
  | kept (f : LeaseRecord → LeaseRecord) (evolves : ∀ a : LeaseRecord, a.evolvesTo (f a))
      (entries : c'.leases.entries.Perm (c.leases.entries.map f)) (next : c'.nextLease = c.nextLease)
  | entered (f : LeaseRecord → LeaseRecord) (evolves : ∀ a : LeaseRecord, a.evolvesTo (f a)) (fresh : LeaseRecord)
      (key : fresh.key = c.nextLease)
      (entries : c'.leases.entries.Perm (c.leases.entries.map f ++ [fresh]))
      (room : c.leases.entries.length < kLeaseTableMax) (next : c'.nextLease = c.nextLease + 1)
      (fenced : ∀ a ∈ c.leases.entries, a.grant.destination = fresh.grant.destination → ¬(f a).live)

theorem TableStep.of_leases (h : c'.leases = c.leases) (hn : c'.nextLease = c.nextLease) :
    TableStep c c' :=
  .kept id LeaseRecord.evolvesTo.refl (by rw [h, List.map_id]) hn

/-- The next id does not run around: the table holds a record for every id given. -/
theorem Sound.nextLease_succ (h : Sound c) (hroom : c.leases.entries.length < kLeaseTableMax) :
    (c.nextLease + 1).toNat = c.nextLease.toNat + 1 := by
  have hcount := h.count
  have hmax : kLeaseTableMax = 2 ^ 63 - 1 := rfl
  have hone : (1 : UInt64).toNat = 1 := rfl
  rw [UInt64.toNat_add, hone]
  omega

theorem Sound.entries_lt (h : Sound c) (f : LeaseRecord → LeaseRecord)
    (hf : ∀ a : LeaseRecord, a.evolvesTo (f a)) {b : LeaseRecord} (hb : b ∈ c.leases.entries.map f) :
    b.key < c.nextLease := by
  obtain ⟨a, ha, rfl⟩ := List.mem_map.mp hb
  rw [(hf a).key]
  exact h.keys_lt a ha

theorem Sound.step (h : Sound c) (ht : TableStep c c') : Sound c' := by
  cases ht with
  | kept f hf hp hn =>
    have hlen : c'.leases.entries.length = c.leases.entries.length := by
      rw [hp.length_eq, List.length_map]
    refine ⟨(h.exclusive.map hf).of_perm hp, fun a ha => ?_, ?_, ?_⟩
    · rw [hn]
      exact h.entries_lt f hf (hp.subset ha)
    · rw [hlen, hn]
      exact h.count
    · rw [hlen]
      exact h.bounded
  | entered f hf fresh hk hp hroom hn hfenced =>
    have hlen : c'.leases.entries.length = c.leases.entries.length + 1 := by
      rw [hp.length_eq, List.length_append, List.length_map, List.length_singleton]
    have hsucc := h.nextLease_succ hroom
    have hcount := h.count
    have hlt : c.nextLease < c.nextLease + 1 := by
      rw [UInt64.lt_iff_toNat_lt]
      omega
    have hex : exclusiveRecords (c.leases.entries.map f ++ [fresh]) := by
      intro x hx y hy hlx hly hd
      rw [List.mem_append, List.mem_singleton] at hx hy
      rcases hx with hx | rfl <;> rcases hy with hy | rfl
      · exact h.exclusive.map hf x hx y hy hlx hly hd
      · obtain ⟨a, ha, rfl⟩ := List.mem_map.mp hx
        exact absurd hlx (hfenced a ha ((hf a).destination ▸ hd))
      · obtain ⟨b, hb, rfl⟩ := List.mem_map.mp hy
        exact absurd hly (hfenced b hb ((hf b).destination ▸ hd.symm))
      · rfl
    refine ⟨hex.of_perm hp, fun a ha => ?_, ?_, ?_⟩
    · rw [hn]
      have hm := hp.subset ha
      rw [List.mem_append, List.mem_singleton] at hm
      rcases hm with hm | rfl
      · exact UInt64.lt_trans (h.entries_lt f hf hm) hlt
      · rw [hk]
        exact hlt
    · rw [hlen, hn, hsucc, hcount]
    · rw [hlen]
      exact hroom

/-! ### Every section is a step of the table -/

section Sections

variable {request : MessageLeaseRequest} {now : Timestamp} {order : Enumeration LeaseRecord}
  {fault : Option AtomicWriteFault}

theorem persistEpoch_leases (c : Coordinator) (fault : Option AtomicWriteFault) :
    (c.persistEpoch fault).1.leases = c.leases ∧
      (c.persistEpoch fault).1.nextLease = c.nextLease := by
  unfold persistEpoch
  split_ifs <;> exact ⟨rfl, rfl⟩

theorem advanceEpoch_leases (c : Coordinator) (fault : Option AtomicWriteFault) :
    (c.advanceEpoch fault).1.leases = c.leases ∧
      (c.advanceEpoch fault).1.nextLease = c.nextLease :=
  persistEpoch_leases c.bumpEpoch fault

/-- No record of the claimed table has the next id. -/
theorem fresh_key {start : Coordinator} (h : Sound c)
    (hl : start.leases.entries.Perm (c.leases.entries.map (c.claimRecord request now)))
    (hn : start.nextLease = c.nextLease) :
    ∀ a ∈ start.leases.entries,
      a.key ≠ LeaseRecord.key { grant := start.freshGrant request now } := by
  intro a ha heq
  have hlt := h.entries_lt _ (evolvesTo_claimRecord c request now) (hl.subset ha)
  rw [heq, LeaseRecord.key, freshGrant, hn] at hlt
  exact UInt64.lt_irrefl _ hlt

/-- The claimed table is left by an advance of the epoch as it is. -/
theorem advanced_entries (hx : exclusiveRecords c.leases.entries) :
    ((c.claimed request now order).advanceEpoch fault).1.leases.entries.Perm
      (c.leases.entries.map (c.claimRecord request now)) := by
  rw [(advanceEpoch_leases (c.claimed request now order) fault).1]
  exact claimed_entries hx

theorem entered_entries {start : Coordinator} (h : Sound c)
    (hl : start.leases.entries.Perm (c.leases.entries.map (c.claimRecord request now)))
    (hn : start.nextLease = c.nextLease) :
    (start.entered request now).leases.entries =
      start.leases.entries ++ [{ grant := start.freshGrant request now }] :=
  KeyedTable.emplace_entries (fresh_key h hl hn)

/-- A fresh lease is a step from any coordinator with the claimed table. -/
theorem entered_tableStep {start : Coordinator} (h : Sound c)
    (hl : start.leases.entries.Perm (c.leases.entries.map (c.claimRecord request now)))
    (hn : start.nextLease = c.nextLease)
    (hfree : ∀ a ∈ c.leases.entries, a.claimedBy request →
      ¬a.heldBy request.boot request.worker)
    (hroom : start.leases.entries.length < kLeaseTableMax) :
    TableStep c (start.entered request now) := by
  have hlen : start.leases.entries.length = c.leases.entries.length := by
    rw [hl.length_eq, List.length_map]
  refine TableStep.entered _ (evolvesTo_claimRecord c request now)
    { grant := start.freshGrant request now } hn ?_ (hlen ▸ hroom) ?_ ?_
  · rw [entered_entries h hl hn]
    exact hl.append_right _
  · show start.nextLease + 1 = _
    rw [hn]
  · intro a ha hd
    rw [claimRecord]
    by_cases hc : a.claimedBy request
    · rw [if_pos hc, if_neg (hfree a ha hc)]
      exact a.not_live_revoke
    · rw [if_neg hc]
      exact fun hlive => hc ⟨hd, hlive⟩

/-- Exclusive records: where one of a destination is foreign, all live ones are. -/
theorem Sound.foreign_of_foreign (h : Sound c) {record a : LeaseRecord}
    (hr : record ∈ c.leases.entries) (hcr : record.claimedBy request)
    (hf : ¬record.heldBy request.boot request.worker) (ha : a ∈ c.leases.entries)
    (hca : a.claimedBy request) : ¬a.heldBy request.boot request.worker := by
  have hk := h.exclusive a ha record hr hca.2 hcr.2 (hca.1.trans hcr.1.symm)
  rw [KeyedTable.eq_of_key_eq ha hr hk]
  exact hf

theorem leaseRequest_tableStep (h : Sound c)
    (hs : c.perform (.leaseRequest request now order fault) = some c') : TableStep c c' := by
  have hby := leaseRequest_by h.exclusive hs
  generalize c.granted (.leaseRequest request now order fault) = sent at hby
  have hclaimed := @claimed_entries c request now order h.exclusive
  have hadvanced := @advanced_entries c request now order fault h.exclusive
  have hnext := (advanceEpoch_leases (c.claimed request now order) fault).2
  cases hby with
  | refused => exact TableStep.of_leases rfl rfl
  | refreshed => exact TableStep.kept _ (evolvesTo_claimRecord c request now) hclaimed rfl
  | unpersisted => exact TableStep.kept _ (evolvesTo_claimRecord c request now) hadvanced hnext
  | superseding hv record mem hcl hf stored room =>
    exact entered_tableStep h hadvanced hnext (fun a ha => h.foreign_of_foreign mem hcl hf ha) room
  | fresh hv hfree room =>
    exact entered_tableStep h hclaimed rfl (fun a ha hc => absurd hc (hfree a ha)) room

theorem modify_tableStep (k : UInt64) (f : LeaseRecord → LeaseRecord)
    (hk : ∀ a, (f a).key = a.key) (hf : ∀ a : LeaseRecord, a.evolvesTo (f a))
    (hl : c'.leases = c.leases.modify k f hk) (hn : c'.nextLease = c.nextLease) :
    TableStep c c' := by
  refine TableStep.kept (fun a => if a.key = k then f a else a) (fun a => ?_) ?_ hn
  · split_ifs
    · exact hf a
    · exact LeaseRecord.evolvesTo.refl a
  · rw [hl]
    exact List.Perm.refl _

/-- A renewal is denied and changes nothing, or the live record named is renewed. -/
theorem renewLease_cases (c : Coordinator) (renew : MessageLeaseRenew) (now : Timestamp) :
    (∃ denied, c.renewLease renew now = (c, .error denied)) ∨
      ∃ record, c.leases.find renew.lease.value = some record ∧ record.live ∧
        renew.epoch = c.epoch ∧ record.grant.boot = renew.boot ∧
        c.renewLease renew now =
          ({ c with
            leases := c.leases.modify renew.lease.value (fun r => r.renew now (c.expiry now))
              fun r => r.renew_key now (c.expiry now)
            statistics := { c.statistics with leasesRenewed := c.statistics.leasesRenewed + 1 } },
            .ok (record.renew now (c.expiry now)).grant) := by
  unfold renewLease
  cases hf : c.leases.find renew.lease.value with
  | none => exact Or.inl ⟨_, rfl⟩
  | some record =>
    simp only
    split_ifs with hl he hb
    · exact Or.inl ⟨_, rfl⟩
    · exact Or.inl ⟨_, rfl⟩
    · exact Or.inr ⟨record, rfl, hl, not_not.mp he, not_not.mp hb, rfl⟩
    · exact Or.inl ⟨_, rfl⟩

theorem renewLease_tableStep (c : Coordinator) (renew : MessageLeaseRenew) (now : Timestamp) :
    TableStep c (c.renewLease renew now).1 := by
  rcases renewLease_cases c renew now with ⟨denied, h⟩ | ⟨record, -, -, -, -, h⟩
  · rw [h]
    exact TableStep.of_leases rfl rfl
  · rw [h]
    exact modify_tableStep _ (fun r => r.renew now (c.expiry now))
      (fun r => r.renew_key now (c.expiry now)) (fun a => a.evolvesTo_renew _ _) rfl rfl

theorem evolvesTo_publishRecord (c : Coordinator) (publish : MessageDecisionPublish)
    (now : Timestamp) (a : LeaseRecord) : a.evolvesTo (c.publishRecord publish now a) := by
  unfold publishRecord
  split_ifs
  · exact a.evolvesTo_revoke
  · exact ⟨rfl, rfl, rfl, rfl, id⟩
  · exact LeaseRecord.evolvesTo.refl a

/-- The records after a published decision. -/
theorem publishDecision_mem {publish : MessageDecisionPublish} {b : LeaseRecord} :
    b ∈ (c.publishDecision publish now).1.leases.entries ↔
      ∃ a ∈ c.leases.entries,
        (if a.key = publish.lease.value then c.publishRecord publish now a else a) = b := by
  unfold publishDecision
  simp only
  cases hf : c.leases.find publish.lease.value with
  | none =>
    have hother := KeyedTable.find_eq_none.mp hf
    constructor
    · intro hb
      exact ⟨b, hb, if_neg (hother b hb)⟩
    · rintro ⟨a, ha, rfl⟩
      rw [if_neg (hother a ha)]
      exact ha
  | some record =>
    simp only
    split <;> exact KeyedTable.mem_modify (h := c.publishRecord_key publish now)

theorem publishDecision_tableStep (c : Coordinator) (publish : MessageDecisionPublish)
    (now : Timestamp) : TableStep c (c.publishDecision publish now).1 := by
  unfold publishDecision
  simp only
  split
  · exact TableStep.of_leases rfl rfl
  · split
    · exact modify_tableStep _ _ (c.publishRecord_key publish now)
        (evolvesTo_publishRecord c publish now) rfl rfl
    · exact modify_tableStep _ _ (c.publishRecord_key publish now)
        (evolvesTo_publishRecord c publish now) rfl rfl

/-- What a control request does to the coordinator: nothing, unless its token is accepted
and it advances the epoch or revokes all leases. -/
inductive ControlledBy (c : Coordinator) (request : ControlRequest)
    (fault : Option AtomicWriteFault) : Coordinator → Prop
  | unchanged (other : c.tokenAccepted request →
      request.opcode ≠ .advanceEpoch ∧ request.opcode ≠ .revokeAll) :
      ControlledBy c request fault c
  | advanced (accepted : c.tokenAccepted request) (opcode : request.opcode = .advanceEpoch) :
      ControlledBy c request fault (c.advanceEpoch fault).1
  | revoked (accepted : c.tokenAccepted request) (opcode : request.opcode = .revokeAll) :
      ControlledBy c request fault c.revokeAll

theorem handleControl_by (c : Coordinator) (request : ControlRequest)
    (fault : Option AtomicWriteFault) :
    ControlledBy c request fault (c.handleControl request fault).1 := by
  unfold handleControl
  by_cases ht : c.tokenAccepted request
  · rw [if_neg (not_not.mpr ht)]
    cases hop : request.opcode with
    | status => exact ControlledBy.unchanged fun _ => by simp [hop]
    | advanceEpoch => exact ControlledBy.advanced ht hop
    | revokeAll => exact ControlledBy.revoked ht hop
    | shutdown => exact ControlledBy.unchanged fun _ => by simp [hop]
  · rw [if_pos ht]
    exact ControlledBy.unchanged fun h => absurd h ht

theorem handleControl_tableStep (c : Coordinator) (request : ControlRequest)
    (fault : Option AtomicWriteFault) : TableStep c (c.handleControl request fault).1 := by
  have hby := handleControl_by c request fault
  generalize (c.handleControl request fault).1 = next at hby
  cases hby with
  | unchanged other => exact TableStep.of_leases rfl rfl
  | advanced accepted opcode =>
    obtain ⟨hl, hn⟩ := advanceEpoch_leases c fault
    exact TableStep.of_leases hl hn
  | revoked accepted opcode =>
    exact TableStep.kept _ LeaseRecord.evolvesTo_revoke (List.Perm.refl _) rfl

theorem perform_tableStep (h : Sound c) (s : Section) (hs : c.perform s = some c') :
    TableStep c c' := by
  cases s with
  | leaseRequest request now order fault => exact leaseRequest_tableStep h hs
  | leaseRenew renew now =>
    rw [← Option.some.inj hs]
    exact renewLease_tableStep c renew now
  | decisionPublish publish now =>
    rw [← Option.some.inj hs]
    exact publishDecision_tableStep c publish now
  | control request fault =>
    rw [← Option.some.inj hs]
    exact handleControl_tableStep c request fault
  | advanceEpoch fault =>
    rw [← Option.some.inj hs]
    obtain ⟨hl, hn⟩ := advanceEpoch_leases c fault
    exact TableStep.of_leases hl hn
  | _ =>
    rw [← Option.some.inj hs]
    exact TableStep.of_leases rfl rfl

end Sections

/-- The record of an entered lease. -/
theorem entered_mem {request : MessageLeaseRequest} {now : Timestamp} {start : Coordinator}
    (h : Sound c)
    (hl : start.leases.entries.Perm (c.leases.entries.map (c.claimRecord request now)))
    (hn : start.nextLease = c.nextLease) :
    ∃ record ∈ (start.entered request now).leases.entries,
      record.live ∧ record.grant = start.freshGrant request now := by
  refine ⟨{ grant := start.freshGrant request now }, ?_, rfl, rfl⟩
  rw [entered_entries h hl hn]
  exact List.mem_append_right _ (List.mem_singleton.mpr rfl)

/-! ### Runs -/

/-- A later coordinator: every lease is kept, and a lease that was not there has an id
that was not given out. -/
structure Later (c c' : Coordinator) : Prop where
  kept : ∀ a ∈ c.leases.entries, ∃ b ∈ c'.leases.entries, a.evolvesTo b
  origin : ∀ b ∈ c'.leases.entries,
    (∃ a ∈ c.leases.entries, a.evolvesTo b) ∨ c.nextLease ≤ b.key
  next : c.nextLease ≤ c'.nextLease

theorem Later.refl (c : Coordinator) : Later c c :=
  ⟨fun a ha => ⟨a, ha, LeaseRecord.evolvesTo.refl a⟩,
    fun b hb => Or.inl ⟨b, hb, LeaseRecord.evolvesTo.refl b⟩, UInt64.le_refl _⟩

theorem Later.trans (h : Later c c') (h' : Later c' c'') : Later c c'' := by
  refine ⟨fun a ha => ?_, fun d hd => ?_, UInt64.le_trans h.next h'.next⟩
  · obtain ⟨b, hb, hab⟩ := h.kept a ha
    obtain ⟨d, hd, hbd⟩ := h'.kept b hb
    exact ⟨d, hd, hab.trans hbd⟩
  · rcases h'.origin d hd with ⟨b, hb, hbd⟩ | hnew
    · rcases h.origin b hb with ⟨a, ha, hab⟩ | hnew
      · exact Or.inl ⟨a, ha, hab.trans hbd⟩
      · rw [← hbd.key] at hnew
        exact Or.inr hnew
    · exact Or.inr (UInt64.le_trans h.next hnew)

theorem TableStep.later (h : Sound c) (ht : TableStep c c') : Later c c' := by
  cases ht with
  | kept f hf hp hn =>
    refine ⟨fun a ha => ⟨f a, hp.symm.subset (List.mem_map_of_mem ha), hf a⟩, fun b hb => ?_, ?_⟩
    · obtain ⟨a, ha, rfl⟩ := List.mem_map.mp (hp.subset hb)
      exact Or.inl ⟨a, ha, hf a⟩
    · rw [hn]
      exact UInt64.le_refl _
  | entered f hf fresh hk hp hroom hn hfenced =>
    refine ⟨fun a ha => ⟨f a, hp.symm.subset ?_, hf a⟩, fun b hb => ?_, ?_⟩
    · exact List.mem_append_left _ (List.mem_map_of_mem ha)
    · have hm := hp.subset hb
      rw [List.mem_append, List.mem_singleton] at hm
      rcases hm with hm | rfl
      · obtain ⟨a, ha, rfl⟩ := List.mem_map.mp hm
        exact Or.inl ⟨a, ha, hf a⟩
      · rw [hk]
        exact Or.inr (UInt64.le_refl _)
    · have hsucc := h.nextLease_succ hroom
      rw [hn, UInt64.le_iff_toNat_le]
      omega

theorem run_none (later : List Section) : run step none later = none := by
  induction later with
  | nil => rfl
  | cons s rest ih => exact ih

/-- The invariant and the order of the table over a run. -/
theorem run_sound_later {sections : List Section} (h : Sound c)
    (hr : run step (some c) sections = some c') : Sound c' ∧ Later c c' := by
  induction sections generalizing c with
  | nil =>
    obtain rfl := Option.some.inj hr
    exact ⟨h, Later.refl c⟩
  | cons s rest ih =>
    rw [run_cons] at hr
    have hstep : step (some c) s = c.perform s := rfl
    rw [hstep] at hr
    cases hp : c.perform s with
    | none =>
      rw [hp, run_none] at hr
      cases hr
    | some next =>
      rw [hp] at hr
      have ht := perform_tableStep h s hp
      obtain ⟨hsound, hlater⟩ := ih (h.step ht) hr
      exact ⟨hsound, (ht.later h).trans hlater⟩

/-- A coordinator that `start` has just brought up. -/
def Started (config : CoordinatorConfig) (c : Coordinator) : Prop :=
  ∃ environment disk, (create config).start environment disk = .ok c

theorem resume_leases {ledger : EpochLedger} {environment : StartEnvironment}
    (h : c.resume ledger environment = .ok c') :
    c'.leases = c.leases ∧ c'.nextLease = c.nextLease := by
  obtain ⟨persisted, -, hstored⟩ := resume_ok h
  have hleases := persistEpoch_leases
    { c with epoch := c.resumeEpoch persisted, ledger, ledgerOpen := true } environment.fault
  rw [hstored] at hleases
  exact hleases

theorem start_leases {environment : StartEnvironment} {disk : Option Text}
    (h : c.start environment disk = .ok c') :
    c'.leases = c.leases ∧ c'.nextLease = c.nextLease := by
  rcases start_ok h with ⟨-, rfl⟩ | ⟨ledger, -, hr⟩
  · exact ⟨rfl, rfl⟩
  · have hleases := resume_leases hr
    exact hleases

theorem sound_of_started {config : CoordinatorConfig} (h : Started config c) : Sound c := by
  obtain ⟨environment, disk, hs⟩ := h
  obtain ⟨hl, hn⟩ := start_leases hs
  have hentries : c.leases.entries = [] := by
    rw [hl]
    rfl
  have hnext : c.nextLease = 1 := hn
  refine ⟨?_, ?_, ?_, ?_⟩ <;> simp [hentries, hnext, exclusiveRecords]

/-! ### Mutual exclusion -/

/-- A granted lease is a live record of the table, under the grant that was sent. -/
theorem granted_mem (h : Sound c) {s : Section} {grant : MessageLeaseGrant}
    (hs : c.perform s = some c') (hg : c.granted s = some grant) :
    ∃ record ∈ c'.leases.entries, record.live ∧ record.grant = grant := by
  cases s with
  | leaseRequest request now order fault =>
    have hby := leaseRequest_by h.exclusive hs
    generalize c.granted (.leaseRequest request now order fault) = sent at hby hg
    have hclaimed := @claimed_entries c request now order h.exclusive
    cases hby with
    | refused => cases hg
    | refreshed hv record mem hcl hh =>
      obtain rfl := Option.some.inj hg
      refine ⟨c.claimRecord request now record,
        hclaimed.symm.subset (List.mem_map_of_mem mem), ?_, ?_⟩
      · rw [claimRecord, if_pos hcl, if_pos hh]
        exact hcl.2
      · rw [claimRecord, if_pos hcl, if_pos hh]
    | unpersisted => cases hg
    | superseding =>
      obtain rfl := Option.some.inj hg
      exact entered_mem h (advanced_entries h.exclusive)
        (advanceEpoch_leases (c.claimed request now order) fault).2
    | fresh =>
      obtain rfl := Option.some.inj hg
      exact entered_mem h hclaimed rfl
  | leaseRenew renew now =>
    obtain rfl := Option.some.inj hs
    simp only [granted] at hg
    rcases renewLease_cases c renew now with ⟨denied, hr⟩ | ⟨record, hfind, hlive, -, -, hr⟩
    · rw [hr] at hg
      cases hg
    · obtain ⟨hmem, hkey⟩ := KeyedTable.find_eq_some.mp hfind
      rw [hr] at hg ⊢
      obtain rfl := Option.some.inj hg
      refine ⟨record.renew now (c.expiry now), ?_, hlive, rfl⟩
      show _ ∈ (c.leases.modify renew.lease.value (fun r => r.renew now (c.expiry now))
        fun r => r.renew_key now (c.expiry now)).entries
      exact KeyedTable.mem_modify.mpr ⟨record, hmem, if_pos hkey⟩
  | _ => cases hg

/-- A revoked lease takes no decision and no renewal. -/
theorem denied_of_revoked {record : LeaseRecord} (hm : record ∈ c.leases.entries)
    (hl : ¬record.live) :
    (∀ publish now, publish.lease = record.grant.lease →
        (c.publishDecision publish now).2.accepted = false) ∧
      ∀ renew now, renew.lease = record.grant.lease →
        ∃ denied, (c.renewLease renew now).2 = .error denied := by
  constructor
  · intro publish now hp
    have hfind : c.leases.find publish.lease.value = some record :=
      KeyedTable.find_eq_some.mpr ⟨hm, by rw [hp]; rfl⟩
    simp [publishDecision, hfind, publishRefusal, hl]
  · intro renew now hr
    have hfind : c.leases.find renew.lease.value = some record :=
      KeyedTable.find_eq_some.mpr ⟨hm, by rw [hr]; rfl⟩
    simp [renewLease, hfind, hl]

/-- No earlier lease of the destination of a grant, if another incarnation holds it, is
ever decided under or renewed. -/
def deniesEarlierHolders (c : Coordinator) (grant : MessageLeaseGrant) (c' : Coordinator) : Prop :=
  ∀ a ∈ c.leases.entries, a.grant.destination = grant.destination →
    ¬a.heldBy grant.boot grant.worker →
      (∀ publish now, publish.lease = a.grant.lease →
        (c'.publishDecision publish now).2.accepted = false) ∧
      ∀ renew now, renew.lease = a.grant.lease →
        ∃ denied, (c'.renewLease renew now).2 = .error denied

structure LeasesExclusive (c : Coordinator) : Prop where
  oneLive : ∀ a ∈ c.leases.entries, ∀ b ∈ c.leases.entries, a.live → b.live →
    a.grant.destination = b.grant.destination → a = b
  revokedStays : ∀ later c', run step (some c) later = some c' → ∀ a ∈ c.leases.entries,
    ∃ b ∈ c'.leases.entries, b.grant.lease = a.grant.lease ∧ (¬a.live → ¬b.live)
  freshIds : ∀ later c', run step (some c) later = some c' → ∀ b ∈ c'.leases.entries,
    (∃ a ∈ c.leases.entries, a.evolvesTo b) ∨ ∀ a ∈ c.leases.entries, a.grant.lease < b.grant.lease
  fenced : ∀ s next grant, c.perform s = some next → c.granted s = some grant →
    ∀ later c', run step (some next) later = some c' → c.deniesEarlierHolders grant c'

/-- From the start of a coordinator on, under every interleaving of sections, its leases
exclude each other. -/
theorem run_leases_exclusive {config : CoordinatorConfig} {c₀ : Coordinator}
    {sections : List Section} (hstart : Started config c₀)
    (hrun : run step (some c₀) sections = some c) : LeasesExclusive c := by
  obtain ⟨hsound, -⟩ := run_sound_later (sound_of_started hstart) hrun
  refine ⟨fun a ha b hb hla hlb hd => ?_, fun later c' hl a ha => ?_, fun later c' hl b hb => ?_,
    fun s next grant hs hg later c' hl a ha hd hh => ?_⟩
  · exact KeyedTable.eq_of_key_eq ha hb (hsound.exclusive a ha b hb hla hlb hd)
  · obtain ⟨b, hb, hab⟩ := (run_sound_later hsound hl).2.kept a ha
    exact ⟨b, hb, StrongId.ext hab.key, fun hn hlive => hn (hab.live hlive)⟩
  · refine ((run_sound_later hsound hl).2.origin b hb).imp id fun hnew a ha => ?_
    exact UInt64.lt_of_lt_of_le (hsound.keys_lt a ha) hnew
  · -- the granted record is live, so the earlier one, of another holder, is not
    have ht := perform_tableStep hsound s hs
    have hnext := hsound.step ht
    obtain ⟨record, hm, hlive, rfl⟩ := granted_mem hsound hs hg
    obtain ⟨b, hb, hab⟩ := (ht.later hsound).kept a ha
    have hdead : ¬b.live := by
      intro hbl
      have hk := hnext.exclusive b hb record hm hbl hlive (hab.destination.trans hd)
      have heq := KeyedTable.eq_of_key_eq hb hm hk
      rw [← heq] at hh
      exact hh ⟨hab.boot.symm, hab.worker.symm⟩
    obtain ⟨x, hx, hbx⟩ := (run_sound_later hnext hl).2.kept b hb
    have hlease : x.grant.lease = a.grant.lease := StrongId.ext (hbx.key.trans hab.key)
    have hdenied := denied_of_revoked hx fun hxl => hdead (hbx.live hxl)
    rw [hlease] at hdenied
    exact hdenied

/-! ### A sample run -/

/-- A coordinator that keeps no ledger, just started. -/
def sampleCoordinator : Coordinator := { create {} with boot := ⟨1⟩ }

/-- A request for destination 7 by one incarnation of one worker. -/
def sampleRequest (incarnation : UInt64) : MessageLeaseRequest :=
  { worker := ⟨1⟩, boot := ⟨incarnation⟩, destination := ⟨7⟩ }

def sampleLease (incarnation : UInt64) (now : Int64) : Section :=
  .leaseRequest (sampleRequest incarnation) ⟨now⟩ (Enumeration.inOrder LeaseRecord) none

/-- The sample coordinator after one incarnation superseded another. -/
def supersededOnce : Coordinator :=
  (run step (some sampleCoordinator) [sampleLease 1 1000, sampleLease 2 2000]).get
    (by decide +kernel)

theorem run_leases_exclusive_superseded : LeasesExclusive supersededOnce :=
  @run_leases_exclusive supersededOnce {} sampleCoordinator
    [sampleLease 1 1000, sampleLease 2 2000] ⟨{}, none, rfl⟩ (Option.some_get _).symm

end Coordinator

end IncastGovernor
