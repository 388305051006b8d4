import IncastGovernor.Durable.RoundTrip

/-! What is decoded from an encoding. Whatever an encoding lost of a state, the state that is
decoded from it has lists within their bounds and basis points that were not clamped: it can
be encoded itself. -/

namespace IncastGovernor

open Codec

theorem of_value_clamped (bp : BasisPoints) : (BasisPoints.of bp.value).clamped = false := by
  unfold BasisPoints.of
  rw [dif_neg (UInt32.not_lt.mpr bp.value_le)]

/-! ### Intents -/

/-- The basis points of an intent were not clamped. -/
structure MitigationIntent.Unclamped (intent : MitigationIntent) : Prop where
  reduction : intent.reductionBp.clamped = false
  admission : intent.admissionReductionBp.clamped = false
  aggregate : intent.aggregateReductionBp.clamped = false

theorem decodeIntent_unclamped {intent decoded : MitigationIntent}
    (h : decodeIntent (encodeIntent intent) = .ok decoded) : decoded.Unclamped := by
  unfold decodeIntent decodeWith at h
  cases hr : readIntent (encodeIntent intent) with
  | error error =>
    rw [hr] at h
    cases h
  | ok result =>
    obtain ⟨read, rest⟩ := result
    rw [hr] at h
    obtain rfl : read = decoded := Except.ok.inj h
    unfold readIntent encodeIntent at hr
    simp only [List.flatten_cons, List.flatten_nil] at hr
    rw [bind_of_ok (readEnum_writeEnum (MitigationKind.mem_all _) (by decide) _ _),
      bind_of_ok (readEnum_writeEnum (MitigationScope.mem_all _) (by decide) _ _)] at hr
    simp only [readU64_bind, readI64_bind, readU32_bind] at hr
    -- what is read behind them does not matter
    refine (?_ : Yields _ MitigationIntent.Unclamped) _ _ _ hr
    refine yields_check fun _ => yields_any fun senders => yields_any fun affected =>
      yields_check fun _ => yields_any fun classes => ?_
    iterate 9 refine yields_any fun _ => ?_
    refine yields_check fun _ => yields_pure ⟨?_, ?_, ?_⟩
    · exact of_value_clamped intent.reductionBp
    · exact of_value_clamped intent.admissionReductionBp
    · exact of_value_clamped intent.aggregateReductionBp

/-! ### Interventions -/

theorem readNested_written {α : Type} {P : α → Prop} {decode : Text → Outcome α} {bytes : Text}
    (hlen : bytes.length < 2 ^ 32) (h : ∀ a, decode bytes = .ok a → P a)
    {oversized truncated : String} {behind rest : Text} {a : α}
    (hr : readNested decode oversized truncated
      ((writeU32 (UInt32.ofNat bytes.length) ++ bytes) ++ behind) = .ok (a, rest)) :
    P a ∧ rest = behind := by
  have hlength : (UInt32.ofNat bytes.length).toNat = bytes.length :=
    UInt32.toNat_ofNat_of_lt' hlen
  unfold readNested at hr
  rw [List.append_assoc] at hr
  simp only [readU32_bind, hlength] at hr
  obtain ⟨-, hr⟩ := check_eq_ok.mp hr
  obtain ⟨_, _, hget, hr⟩ := bind_eq_ok.mp hr
  obtain ⟨rfl, rfl⟩ := Prod.mk.inj (get_eq_ok.mp hget)
  obtain ⟨-, hr⟩ := check_eq_ok.mp hr
  obtain ⟨_, _, hget, hr⟩ := bind_eq_ok.mp hr
  obtain ⟨rfl, rfl⟩ := Prod.mk.inj (get_eq_ok.mp hget)
  obtain ⟨found, mid, hdecode, hr⟩ := bind_eq_ok.mp hr
  rw [List.take_left] at hdecode
  obtain ⟨decoded, hdecoded, hmid⟩ := liftM_eq_ok.mp hdecode
  obtain ⟨rfl, rfl⟩ := Prod.mk.inj hmid
  obtain ⟨_, left, hraw, hr⟩ := bind_eq_ok.mp hr
  obtain ⟨rfl, rfl⟩ := Prod.mk.inj (pure_eq_ok.mp hr)
  obtain ⟨hsize, hbytes⟩ := readRaw_eq_ok.mp hraw
  exact ⟨h _ hdecoded, (List.append_inj hbytes hsize.symm).2.symm⟩

structure Intervention.Unclamped (intervention : Intervention) : Prop where
  intent : intervention.intent.Unclamped
  applied : intervention.appliedReductionBp.clamped = false

theorem decodeIntervention_unclamped {intervention decoded : Intervention}
    (hlen : (encodeIntent intervention.intent).length < 2 ^ 32)
    (h : decodeIntervention (encodeIntervention intervention) = .ok decoded) :
    decoded.Unclamped := by
  unfold decodeIntervention decodeWith at h
  cases hr : readIntervention (encodeIntervention intervention) with
  | error error =>
    rw [hr] at h
    cases h
  | ok result =>
    obtain ⟨read, rest⟩ := result
    rw [hr] at h
    obtain rfl : read = decoded := Except.ok.inj h
    unfold readIntervention encodeIntervention at hr
    simp only [List.flatten_cons, List.flatten_nil, List.append_nil] at hr
    simp only [readU64_bind] at hr
    rw [bind_of_ok (readEnum_writeEnum (InterventionState.mem_all _) (by decide) _ _)] at hr
    simp only [readU64_bind, readI64_bind, readU32_bind] at hr
    rw [bind_of_ok (readEnum_writeEnum (RefusalReason.mem_all _) (by decide) _ _)] at hr
    simp only [readStr_bind] at hr
    obtain ⟨intent, behind, hnested, hr⟩ := bind_eq_ok.mp hr
    rw [← List.append_nil (writeU32 _ ++ _)] at hnested
    obtain ⟨hintent, -⟩ := readNested_written hlen (fun _ => decodeIntent_unclamped) hnested
    refine (?_ : Yields _ Intervention.Unclamped) _ _ _ hr
    refine yields_any fun _ => yields_check fun _ => yields_pure ⟨hintent, ?_⟩
    exact of_value_clamped intervention.appliedReductionBp

/-! ### The state -/

/-- Elements that are written in a row are read in a row. -/
theorem readMany_written {α β : Type} {P : β → Prop} {one : Reader β} {write : α → Text}
    {as : List α} {behind rest : Text} {bs : List β}
    (h : ∀ a ∈ as, ∀ behind b rest, one (write a ++ behind) = .ok (b, rest) →
      P b ∧ rest = behind)
    (hr : readMany one as.length (as.flatMap write ++ behind) = .ok (bs, rest)) :
    (∀ b ∈ bs, P b) ∧ rest = behind := by
  induction as generalizing bs rest with
  | nil =>
    obtain ⟨rfl, rfl⟩ := Prod.mk.inj (pure_eq_ok.mp hr)
    exact ⟨fun b hb => absurd hb List.not_mem_nil, rfl⟩
  | cons a as ih =>
    rw [List.length_cons, readMany, List.flatMap_cons, List.append_assoc] at hr
    obtain ⟨b, mid, hone, hr⟩ := bind_eq_ok.mp hr
    obtain ⟨hb, rfl⟩ := h a List.mem_cons_self _ _ _ hone
    obtain ⟨bs', mid', hmany, hlast⟩ := bind_eq_ok.mp hr
    obtain ⟨hrest, rfl⟩ := ih (fun a' ha' => h a' (List.mem_cons_of_mem a ha')) hmany
    obtain ⟨rfl, rfl⟩ := Prod.mk.inj (pure_eq_ok.mp hlast)
    exact ⟨List.forall_mem_cons.mpr ⟨hb, hrest⟩, rfl⟩

theorem encodeWindowRecord_stored (record : WindowRecord) :
    encodeWindowRecord record.stored = encodeWindowRecord record := rfl

/-- An intervention behind its length. -/
def writeIntervention (intervention : Intervention) : Text :=
  writeU32 (UInt32.ofNat (encodeIntervention intervention).length) ++
    encodeIntervention intervention

section Lengths

variable {state : GovernorState} {intervention : Intervention}

theorem table_sublist (state : GovernorState) :
    (state.interventions.flatMap writeIntervention).Sublist (encodePayload state) := by
  have hwrite : writeIntervention = fun intervention =>
      let bytes := encodeIntervention intervention
      writeU32 (UInt32.ofNat bytes.length) ++ bytes := rfl
  rw [hwrite]
  unfold encodePayload
  apply List.sublist_flatten_of_mem
  simp

theorem history_sublist (state : GovernorState) :
    (state.history.flatMap encodeWindowRecord).Sublist (encodePayload state) := by
  unfold encodePayload
  apply List.sublist_flatten_of_mem
  simp

theorem history_length_le (state : GovernorState) :
    state.history.length ≤ (encodePayload state).length := by
  have hbytes : 47 * state.history.length ≤ (state.history.flatMap encodeWindowRecord).length :=
    le_flatMap_length fun record _ => (encodeWindowRecord_length record).ge
  have hlen := (history_sublist state).length_le
  omega

/-- A table takes as many bytes for each record as each of them has at least. -/
theorem le_encodePayload_length {bound : ℕ}
    (h : ∀ intervention ∈ state.interventions, bound ≤ (encodeIntervention intervention).length) :
    (bound + 4) * state.interventions.length ≤ (encodePayload state).length := by
  refine Nat.le_trans (le_flatMap_length fun intervention hm => ?_)
    (table_sublist state).length_le
  have hbound := h intervention hm
  rw [writeIntervention, List.length_append, writeU32_length]
  omega

theorem table_length_le (state : GovernorState) :
    state.interventions.length ≤ (encodePayload state).length := by
  have hbytes := @le_encodePayload_length state 0 fun _ _ => Nat.zero_le _
  omega

theorem encodeIntent_length_le (intervention : Intervention) :
    (encodeIntent intervention.intent).length ≤ (encodeIntervention intervention).length := by
  unfold encodeIntervention
  refine List.Sublist.length_le (List.sublist_flatten_of_mem ?_)
  simp

/-- The encoding of a record is in the one of its state. -/
theorem encodeIntervention_length_le (hm : intervention ∈ state.interventions) :
    (encodeIntervention intervention).length ≤ (encodePayload state).length := by
  refine Nat.le_trans ?_ (table_sublist state).length_le
  rw [List.flatMap_def]
  refine Nat.le_trans ?_ (List.sublist_flatten_of_mem (List.mem_map_of_mem hm)).length_le
  rw [writeIntervention, List.length_append]
  exact Nat.le_add_left _ _

end Lengths

/-- The basis points of what is decoded were not clamped. -/
theorem readState_unclamped {state read : GovernorState} {rest : Text}
    (hlen : (encodePayload state).length < 2 ^ 32)
    (h : readState (encodePayload state) = .ok (read, rest)) :
    (∀ record ∈ read.history, record.Encodable) ∧
      ∀ intervention ∈ read.interventions, intervention.Unclamped := by
  have hhistory : (UInt32.ofNat state.history.length).toNat = state.history.length :=
    UInt32.toNat_ofNat_of_lt' (Nat.lt_of_le_of_lt (history_length_le state) hlen)
  have htable : (UInt32.ofNat state.interventions.length).toNat = state.interventions.length :=
    UInt32.toNat_ofNat_of_lt' (Nat.lt_of_le_of_lt (table_length_le state) hlen)
  have hwindow : ∀ record ∈ state.history, ∀ behind b rest,
      readWindowRecord (encodeWindowRecord record ++ behind) = .ok (b, rest) →
        b.Encodable ∧ rest = behind := by
    intro record _ behind b rest hr
    have hstored : record.stored.Encodable := ⟨rfl, rfl⟩
    have hread := readWindowRecord_encodeWindowRecord hstored behind
    rw [encodeWindowRecord_stored, hr] at hread
    obtain ⟨rfl, rfl⟩ := Prod.mk.inj (Except.ok.inj hread)
    exact ⟨hstored, rfl⟩
  have hrecord : ∀ intervention ∈ state.interventions, ∀ behind b rest,
      readNested decodeIntervention "encoded intervention exceeds the record bound"
        "encoded intervention is truncated" (writeIntervention intervention ++ behind) =
          .ok (b, rest) → b.Unclamped ∧ rest = behind := by
    intro intervention hm behind b rest hr
    have hbytes := Nat.lt_of_le_of_lt (encodeIntervention_length_le hm) hlen
    have hintent := Nat.lt_of_le_of_lt (encodeIntent_length_le intervention) hbytes
    exact readNested_written hbytes (fun _ => decodeIntervention_unclamped hintent) hr
  unfold readState encodePayload at h
  simp only [List.flatten_cons, List.flatten_nil] at h
  simp only [readU64_bind, readI64_bind, readU32_bind] at h
  obtain ⟨-, h⟩ := check_eq_ok.mp h
  simp only [readU64_bind, readI64_bind, readU32_bind, readBool_bind] at h
  rw [bind_of_ok (readSequences_write _ _)] at h
  simp only [readU32_bind, hhistory] at h
  obtain ⟨-, h⟩ := check_eq_ok.mp h
  obtain ⟨history, behind, hmany, h⟩ := bind_eq_ok.mp h
  obtain ⟨hwindows, rfl⟩ := readMany_written hwindow hmany
  simp only [readU32_bind, htable] at h
  obtain ⟨-, h⟩ := check_eq_ok.mp h
  obtain ⟨interventions, behind, hmany, h⟩ := bind_eq_ok.mp h
  obtain ⟨hrecords, -⟩ := readMany_written hrecord hmany
  obtain ⟨rfl, -⟩ := Prod.mk.inj (pure_eq_ok.mp h)
  exact ⟨hwindows, hrecords⟩

/-- What is decoded from an encoding can be encoded. -/
theorem encodable_of_decoded {state decoded : GovernorState}
    (hlen : (encodeState state).length < 2 ^ 32)
    (h : decodeState (encodeState state) = .ok decoded) : decoded.Encodable := by
  have hpayload : (encodePayload state).length < 2 ^ 32 := by
    rw [encodeState_length] at hlen
    omega
  rw [encodeState_eq_container, decodeState_container_iff hpayload] at h
  obtain ⟨-, hread, hvalid, -⟩ := h
  obtain ⟨hnext, hlists⟩ := decodeWith_yields yields_readState hread
  obtain ⟨hhistory, htable, hrecords⟩ := validate_eq_ok.mp hvalid
  obtain ⟨hwindows, hunclamped⟩ : (∀ record ∈ decoded.history, record.Encodable) ∧
      ∀ intervention ∈ decoded.interventions, intervention.Unclamped := by
    unfold decodeWith at hread
    cases hr : readState (encodePayload state) with
    | error error =>
      rw [hr] at hread
      cases hread
    | ok result =>
      rw [hr] at hread
      obtain rfl : result.1 = decoded := Except.ok.inj hread
      exact readState_unclamped hpayload hr
  refine ⟨hnext, hhistory, htable, hwindows, fun intervention hm => ?_⟩
  obtain ⟨hid, hbounded⟩ := hrecords intervention hm
  have hfree := hunclamped intervention hm
  have hlist := hlists intervention hm
  exact ⟨hid, hbounded, ⟨hfree.intent.reduction, hfree.intent.admission, hfree.intent.aggregate,
    hlist.intent.penalized, hlist.intent.affected⟩, hfree.applied, hlist.detail⟩

end IncastGovernor
