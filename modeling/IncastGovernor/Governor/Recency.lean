import IncastGovernor.Governor.Representation
import IncastGovernor.Governor.Terminal

/-! Which records a bounded table keeps. A trim writes the terminal records newest first, and the
next trim reads them as if they were oldest first: the first trim of a table drops its oldest
record, the second drops the one that was issued last. -/

namespace IncastGovernor

/-! ### One trim -/

section Full

variable {front issued : Intervention} {rest : List Intervention}

/-- Behind a full table without a live record, a live one takes the place of the first, and the
rest is turned around. -/
theorem trim_full (hd : ∀ record ∈ front :: rest, ¬record.live) (hl : issued.live)
    (hn : (front :: rest).length = kMaxInterventions) :
    trimInterventions (front :: rest ++ [issued]) = issued :: rest.reverse ∧
      trimmedInterventions (front :: rest ++ [issued]) = [front] := by
  have hover : ¬(front :: rest ++ [issued]).length ≤ kMaxInterventions := by
    rw [List.length_append, hn]
    exact Nat.not_succ_le_self _
  have hlive : (front :: rest ++ [issued]).filter (fun record => decide record.live) = [issued] := by
    rw [List.filter_append, List.filter_eq_nil_iff.mpr (by simpa using hd)]
    simp [hl]
  have hdead : (front :: rest ++ [issued]).reverse.filter (fun record => decide ¬record.live) =
      rest.reverse ++ [front] := by
    rw [List.reverse_append, List.filter_append]
    have hnew : [issued].reverse.filter (fun record => decide ¬record.live) = [] := by simp [hl]
    have hold : (front :: rest).reverse.filter (fun record => decide ¬record.live) =
        (front :: rest).reverse :=
      List.filter_eq_self.mpr fun record hm => decide_eq_true (hd record (List.mem_reverse.mp hm))
    rw [hnew, hold, List.nil_append, List.reverse_cons]
  have hroom : kMaxInterventions - [issued].length = rest.reverse.length := by
    rw [← hn, List.length_reverse]
    rfl
  unfold trimInterventions trimmedInterventions
  rw [if_neg hover, if_neg hover]
  simp only [hlive, hdead, hroom, List.take_left, List.drop_left, List.singleton_append, and_self]

end Full

namespace Governor

/-! ### Runs with the records they drop -/

/-- The records an operation trims from the table. -/
def trimmed (g : Governor) : Operation → List Intervention
  | .evaluate bundle =>
    if g.accepts bundle ∧ g.liveFence bundle = none then
      trimmedInterventions (g.effectState bundle (g.effect bundle)).interventions
    else []
  | _ => []

/-- The operation puts another table in the place of the governor's own. -/
def replacesTable : Operation → Prop
  | .restoreState state => state.validate = .ok ()
  | .reset => True
  | _ => False

instance : ∀ operation : Operation, Decidable (replacesTable operation)
  | .restoreState state => inferInstanceAs (Decidable (state.validate = .ok ()))
  | .reset => inferInstanceAs (Decidable True)
  | .evaluate _ | .configurePolicy _ _ | .bindAuthority _ _ _ _ _ | .retire _ _ _ | .shutdown _ =>
    inferInstanceAs (Decidable False)

/-- A governor with the records that were ever trimmed from its table. -/
abbrev Trimming := Governor × List Intervention

def trimmingStep (s : Trimming) (operation : Operation) : Trimming :=
  (s.1.step operation,
    if replacesTable operation then [] else s.2 ++ s.1.trimmed operation)

/-- No live record was dropped, every record kept was created later than every one dropped, and
records are dropped only from a full table. Identities count up, so a record created earlier has
a smaller one. -/
structure KeepsRecent (s : Trimming) : Prop where
  live : ∀ dropped ∈ s.2, ¬dropped.live
  recent : ∀ kept ∈ s.1.state.interventions, ∀ dropped ∈ s.2, dropped.id.value < kept.id.value
  full : s.2 ≠ [] → s.1.state.interventions.length = kMaxInterventions

theorem keepsRecent_of_none {s : Trimming} (h : s.2 = []) : KeepsRecent s := by
  obtain ⟨g, dropped⟩ := s
  subst h
  exact ⟨fun _ h => absurd h List.not_mem_nil, fun _ _ _ h => absurd h List.not_mem_nil,
    fun h => absurd rfl h⟩

/-- A window issues an intervention over a full table. -/
def overfills (g : Governor) : Operation → Prop
  | .evaluate bundle => g.Issues bundle ∧ g.state.interventions.length = kMaxInterventions
  | _ => False

/-- The first record of the table was created before the others and before the next one. -/
def oldestFirst (g : Governor) : Prop :=
  ∀ front rest, g.state.interventions = front :: rest →
    front.id.value < g.state.nextInterventionGeneration.value ∧
      ∀ record ∈ rest, front.id.value < record.id.value

variable {g : Governor}

/-- What a window that issues over a full table leaves, and what it drops. -/
theorem overfills_step {operation : Operation} (h : g.overfills operation) :
    ∃ front rest issued, g.state.interventions = front :: rest ∧
      issued.id.value = g.state.nextInterventionGeneration.value ∧ ¬front.live ∧
      (g.step operation).state.interventions = issued :: rest.reverse ∧
      g.trimmed operation = [front] := by
  cases operation with
  | evaluate bundle =>
    obtain ⟨hissues, hfull⟩ := h
    have hdead := findLive_eq_none.mp hissues.vacant
    cases htable : g.state.interventions with
    | nil =>
      rw [htable] at hfull
      exact absurd hfull (by decide)
    | cons front rest =>
      rw [htable] at hdead hfull
      obtain ⟨hkept, htrimmed⟩ := trim_full hdead (@issuedRecord_live g bundle) hfull
      refine ⟨front, rest, g.issuedRecord bundle, rfl, issuedRecord_id hissues,
        hdead front List.mem_cons_self, ?_, ?_⟩
      · show (g.evaluate bundle).2.state.interventions = _
        rw [(evaluate_of_issues hissues).1, htable]
        exact hkept
      · unfold trimmed
        simp only
        rw [if_pos ⟨hissues.accepts, hissues.unfenced⟩, effectState_interventions,
          effect_of_issues hissues, htable]
        exact htrimmed
  | _ => exact h.elim

/-- The identities of the table. -/
def ids (g : Governor) : List InterventionId := g.state.interventions.map fun record => record.id

theorem ids_length (g : Governor) : g.ids.length = g.state.interventions.length :=
  List.length_map _

/-- The next identity. -/
def nextId (g : Governor) : InterventionId := ⟨g.state.nextInterventionGeneration.value⟩

/-- Any other operation drops nothing. -/
theorem trimmed_eq_nil (hb : tableBounded g) {operation : Operation}
    (ho : ¬g.overfills operation) : g.trimmed operation = [] := by
  cases operation with
  | evaluate bundle =>
    unfold trimmed
    simp only
    split_ifs with hcommits
    · rcases effect_table hcommits.1 hcommits.2 with ⟨hmoved, -⟩ | ⟨hissues, htable, -⟩
      · exact trimmedInterventions_of_length_le (hmoved.length_eq.symm.trans_le hb)
      · have hroom : g.state.interventions.length < kMaxInterventions :=
          lt_of_le_of_ne hb fun hfull => ho ⟨hissues, hfull⟩
        rw [htable]
        refine trimmedInterventions_of_length_le ?_
        rw [List.length_append]
        exact hroom
    · rfl
  | _ => rfl

/-- Where it does not replace the table, it keeps the identities, or adds the next one to a table
that is not full. -/
theorem kept_step (hb : tableBounded g) {operation : Operation} (hr : ¬replacesTable operation)
    (ho : ¬g.overfills operation) :
    (g.step operation).ids = g.ids ∧ (g.step operation).nextId = g.nextId ∨
      g.state.interventions.length < kMaxInterventions ∧
        (g.step operation).ids = g.ids ++ [g.nextId] ∧
        (g.step operation).state.nextInterventionGeneration =
          g.state.nextInterventionGeneration.next := by
  have hids : ∀ table, List.Forall₂ (Moves g operation) g.state.interventions table →
      (table.map fun record => record.id) = g.ids :=
    fun table h => map_id_of_keeps (h.imp fun _ _ hm => keeps_of_moves hm)
  have htable := step_table g operation
  unfold ids nextId
  generalize (g.step operation).state.interventions = table at htable ⊢
  generalize (g.step operation).state.nextInterventionGeneration = next at htable ⊢
  cases htable with
  | moved h => exact Or.inl ⟨hids _ h, rfl⟩
  | committed h =>
    rw [trimInterventions_of_length_le (h.length_eq.symm.trans_le hb)]
    exact Or.inl ⟨hids _ h, rfl⟩
  | @issued bundle h =>
    have hroom : g.state.interventions.length < kMaxInterventions :=
      lt_of_le_of_ne hb fun hfull => ho ⟨h, hfull⟩
    have hfits : (g.state.interventions ++ [g.issuedRecord bundle]).length ≤ kMaxInterventions := by
      rw [List.length_append]
      exact hroom
    have hid : (g.issuedRecord bundle).id = ⟨g.state.nextInterventionGeneration.value⟩ :=
      congrArg StrongId.mk (issuedRecord_id h)
    rw [trimInterventions_of_length_le hfits, List.map_append, List.map_singleton, hid]
    exact Or.inr ⟨hroom, rfl, rfl⟩
  | restored hv => exact absurd hv hr
  | reset => exact absurd trivial hr

theorem full_of_overfills {operation : Operation} (h : g.overfills operation) :
    g.state.interventions.length = kMaxInterventions := by
  cases operation with
  | evaluate bundle => exact h.2
  | _ => exact h.elim

theorem not_overfills_of_replaces {operation : Operation} (h : replacesTable operation) :
    ¬g.overfills operation := by
  cases operation with
  | evaluate bundle => exact h.elim
  | _ => exact id

section Steps

variable {s : Trimming} {operation : Operation}

/-- An operation that overfills the table keeps the most recent records exactly when it finds the
oldest one in front. -/
theorem keepsRecent_overfills (h : KeepsRecent s) (ho : s.1.overfills operation) :
    KeepsRecent (trimmingStep s operation) ↔ s.1.oldestFirst := by
  obtain ⟨front, rest, issued, hbefore, hid, hdead, hafter, htrimmed⟩ := overfills_step ho
  have hr : ¬replacesTable operation := fun hr => not_overfills_of_replaces hr ho
  have hdropped : (trimmingStep s operation).2 = s.2 ++ s.1.trimmed operation := if_neg hr
  rw [htrimmed] at hdropped
  have hkept : (trimmingStep s operation).1.state.interventions = issued :: rest.reverse := hafter
  constructor
  · intro hrecent other others hother
    obtain ⟨rfl, rfl⟩ := List.cons.inj (hbefore.symm.trans hother)
    have hfront : front ∈ (trimmingStep s operation).2 := by
      rw [hdropped]
      exact List.mem_append_right _ (List.mem_singleton_self _)
    refine ⟨?_, fun record hm => ?_⟩
    · rw [← hid]
      refine hrecent.recent issued ?_ front hfront
      rw [hkept]
      exact List.mem_cons_self
    · refine hrecent.recent record ?_ front hfront
      rw [hkept]
      exact List.mem_cons_of_mem _ (List.mem_reverse.mpr hm)
  · intro holdest
    obtain ⟨hnext, hothers⟩ := holdest front rest hbefore
    have hold : ∀ dropped ∈ s.2, ∀ record ∈ front :: rest, dropped.id.value < record.id.value := by
      intro dropped hd record hm
      exact h.recent record (hbefore ▸ hm) dropped hd
    refine ⟨fun dropped hd => ?_, fun kept hk dropped hd => ?_, fun _ => ?_⟩
    · rw [hdropped] at hd
      rcases List.mem_append.mp hd with hd | hd
      · exact h.live dropped hd
      · rwa [List.mem_singleton.mp hd]
    · rw [hkept] at hk
      rw [hdropped] at hd
      have hbelow : dropped.id.value ≤ front.id.value := by
        rcases List.mem_append.mp hd with hd | hd
        · exact UInt64.le_of_lt (hold dropped hd front List.mem_cons_self)
        · rw [List.mem_singleton.mp hd]
          exact UInt64.le_refl _
      rcases List.mem_cons.mp hk with rfl | hk
      · rw [hid]
        exact UInt64.lt_of_le_of_lt hbelow hnext
      · exact UInt64.lt_of_le_of_lt hbelow (hothers kept (List.mem_reverse.mp hk))
    · have hlength : (front :: rest).length = kMaxInterventions :=
        hbefore ▸ full_of_overfills ho
      rw [hkept, List.length_cons, List.length_reverse]
      exact hlength

/-- Where it neither replaces nor overfills the table, the most recent records stay. -/
theorem keepsRecent_kept (hb : tableBounded s.1) (h : KeepsRecent s)
    (hr : ¬replacesTable operation) (ho : ¬s.1.overfills operation) :
    KeepsRecent (trimmingStep s operation) := by
  have hdropped : (trimmingStep s operation).2 = s.2 ++ s.1.trimmed operation := if_neg hr
  rw [trimmed_eq_nil hb ho, List.append_nil] at hdropped
  rcases kept_step hb hr ho with ⟨hids, -⟩ | ⟨hroom, -⟩
  · refine ⟨fun dropped hd => h.live dropped (hdropped ▸ hd), fun kept hk dropped hd => ?_,
      fun hne => ?_⟩
    · have hid : kept.id ∈ s.1.ids := by
        rw [← hids]
        exact List.mem_map_of_mem hk
      obtain ⟨record, hm, hsame⟩ := List.mem_map.mp hid
      rw [← hsame]
      exact h.recent record hm dropped (hdropped ▸ hd)
    · have hlength := congrArg List.length hids
      rw [ids_length, ids_length] at hlength
      exact hlength.trans (h.full (hdropped ▸ hne))
  · refine keepsRecent_of_none (hdropped.trans ?_)
    by_contra hne
    exact absurd (h.full hne) hroom.ne

end Steps

/-- One operation keeps the most recent records exactly when it does not issue over a full table
whose first record is not the oldest. -/
theorem keepsRecent_step {s : Trimming} (hb : tableBounded s.1) (h : KeepsRecent s)
    (operation : Operation) :
    KeepsRecent (trimmingStep s operation) ↔ (s.1.overfills operation → s.1.oldestFirst) := by
  by_cases ho : s.1.overfills operation
  · exact (keepsRecent_overfills h ho).trans ⟨fun holdest _ => holdest, fun holdest => holdest ho⟩
  refine ⟨fun _ hover => absurd hover ho, fun _ => ?_⟩
  by_cases hr : replacesTable operation
  · have hnone : (trimmingStep s operation).2 = [] := if_pos hr
    exact keepsRecent_of_none hnone
  · exact keepsRecent_kept hb h hr ho

/-- A call that overfills the table finds the oldest record in front. -/
def trimsOldest (call : Governor × Operation) : Prop :=
  call.1.overfills call.2 → call.1.oldestFirst

/-- Over a run of all operations: every state keeps the most recent records exactly when every
window that issues over a full table finds the oldest record in front. -/
theorem run_keeps_recent_iff (config : GovernorConfig) (operations : List Operation) :
    (∀ reached, reached <+: operations →
        KeepsRecent (Foundation.run trimmingStep (create config, []) reached)) ↔
      ∀ call ∈ calls config operations, trimsOldest call := by
  have hcalls := Foundation.calls_map trimmingStep step Prod.fst (fun _ _ => rfl)
    (create config, []) operations
  rw [calls, ← hcalls, List.forall_mem_map]
  exact Foundation.prefixes_iff_calls (I := fun s : Trimming => tableBounded s.1)
    (fun _ operation _ => tableBounded_step _ operation)
    (fun s operation _ hb h => keepsRecent_step hb h operation)
    (tableBounded_create config) (keepsRecent_of_none rfl)

/-- A full table of retired records, oldest first. -/
def fullState : GovernorState :=
  { interventions := (List.range kMaxInterventions).map fun n =>
      { id := ⟨UInt64.ofNat (n + 1)⟩, state := .retired, intent := { bounded := true } }
    nextInterventionGeneration := ⟨513⟩ }

/-- Two windows issue over that table, and the first record they issue is retired between. -/
def twoTrims : List Operation :=
  [.restoreState fullState, .bindAuthority ⟨1⟩ ⟨1⟩ ⟨1⟩ ⟨1⟩ ⟨9000000000⟩, .evaluate incidentWindow,
    .retire ⟨513⟩ ⟨1500000000⟩ [], .evaluate incidentWindow]

/-- The second trim drops record 513 and keeps record 2. -/
theorem second_trim_drops_newest :
    fullState.validate = .ok () ∧
      ¬∀ reached, reached <+: twoTrims →
        KeepsRecent (Foundation.run trimmingStep (create sampleConfig, []) reached) := by
  refine ⟨by decide +kernel, fun h => ?_⟩
  have hlast := h twoTrims (List.prefix_refl _)
  have hkept : (2 : UInt64) ∈
      (Foundation.run trimmingStep (create sampleConfig, []) twoTrims).1.state.interventions.map
        fun record => record.id.value := by
    decide +kernel
  have hdropped : (513 : UInt64) ∈
      (Foundation.run trimmingStep (create sampleConfig, []) twoTrims).2.map
        fun record => record.id.value := by
    decide +kernel
  obtain ⟨kept, hk, htwo⟩ := List.mem_map.mp hkept
  obtain ⟨dropped, hd, hnewest⟩ := List.mem_map.mp hdropped
  have hlt := hlast.recent kept hk dropped hd
  rw [htwo, hnewest] at hlt
  exact absurd hlt (by decide)

/-! ### Runs from the constructor -/

/-- No record was trimmed yet: the identities of the table count up to the next one. -/
structure Untrimmed (g : Governor) : Prop where
  ascending : g.ids.Pairwise fun a b => a.value < b.value
  below : ∀ id ∈ g.ids, id.value < g.nextId.value
  next : g.nextId.value.toNat = g.ids.length + 1

/-- A trim turned the table around: the record in front is the newest. -/
def turned (g : Governor) : Prop :=
  ∃ newest rest, g.ids = newest :: rest ∧ rest ≠ [] ∧ g.ids.length = kMaxInterventions ∧
    ∀ id ∈ rest, id.value < newest.value

theorem untrimmed_create (config : GovernorConfig) : Untrimmed (create config) :=
  ⟨List.Pairwise.nil, fun _ h => absurd h List.not_mem_nil, rfl⟩

theorem Untrimmed.oldestFirst (h : Untrimmed g) : g.oldestFirst := by
  intro front rest htable
  have hids : g.ids = front.id :: rest.map fun record => record.id := by rw [ids, htable]; rfl
  have hpairwise := hids ▸ h.ascending
  refine ⟨h.below front.id (hids ▸ List.mem_cons_self), fun record hm => ?_⟩
  exact (List.pairwise_cons.mp hpairwise).1 record.id (List.mem_map_of_mem hm)

theorem not_oldestFirst_of_turned (h : g.turned) : ¬g.oldestFirst := by
  obtain ⟨newest, others, hids, hne, -, hnewest⟩ := h
  intro holdest
  cases htable : g.state.interventions with
  | nil =>
    rw [ids, htable] at hids
    cases hids
  | cons front rest =>
    rw [ids, htable] at hids
    obtain ⟨rfl, rfl⟩ := List.cons.inj hids
    obtain ⟨id, hid⟩ := List.exists_mem_of_ne_nil _ hne
    obtain ⟨record, hm, rfl⟩ := List.mem_map.mp hid
    exact UInt64.lt_asymm ((holdest front rest htable).2 record hm) (hnewest record.id hid)

theorem Untrimmed.step (hb : tableBounded g) (h : Untrimmed g) {operation : Operation}
    (hr : ¬replacesTable operation) (ho : ¬g.overfills operation) :
    Untrimmed (g.step operation) := by
  rcases kept_step hb hr ho with ⟨hids, hnext⟩ | ⟨hroom, hids, hnext⟩
  · refine ⟨?_, ?_, ?_⟩ <;> rw [hids]
    · exact h.ascending
    · rw [hnext]
      exact h.below
    · rw [hnext]
      exact h.next
  · have hcount : (g.step operation).nextId.value.toNat = g.nextId.value.toNat + 1 := by
      have hvalue : (g.step operation).nextId.value = g.nextId.value + 1 := by
        unfold nextId
        rw [hnext]
        rfl
      have hlt := h.next
      have hmax : kMaxInterventions = 512 := rfl
      have hone : (1 : UInt64).toNat = 1 := rfl
      rw [ids_length] at hlt
      rw [hvalue, UInt64.toNat_add]
      omega
    have hlast : g.nextId.value < (g.step operation).nextId.value := by
      rw [UInt64.lt_iff_toNat_lt, hcount]
      exact Nat.lt_succ_self _
    refine ⟨?_, fun id hid => ?_, ?_⟩
    · rw [hids, List.pairwise_append]
      refine ⟨h.ascending, List.pairwise_singleton _ _, fun a ha b hb => ?_⟩
      rw [List.mem_singleton.mp hb]
      exact h.below a ha
    · rw [hids] at hid
      rcases List.mem_append.mp hid with hid | hid
      · exact UInt64.lt_trans (h.below id hid) hlast
      · rw [List.mem_singleton.mp hid]
        exact hlast
    · rw [hcount, h.next, hids, List.length_append]
      rfl

/-- The first trim of an untrimmed table turns it around. -/
theorem Untrimmed.turned (h : Untrimmed g) {operation : Operation} (ho : g.overfills operation) :
    (g.step operation).turned := by
  obtain ⟨front, rest, issued, hbefore, hid, -, hafter, -⟩ := overfills_step ho
  have hlength : (front :: rest).length = kMaxInterventions :=
    hbefore ▸ full_of_overfills ho
  have hids : (g.step operation).ids =
      issued.id :: (rest.reverse.map fun record => record.id) := by
    rw [ids, hafter]
    rfl
  have hbelow : ∀ record ∈ front :: rest, record.id.value < g.nextId.value :=
    fun record hm => h.below record.id (List.mem_map_of_mem (hbefore ▸ hm))
  refine ⟨issued.id, _, hids, fun hnil => ?_, ?_, fun id hm => ?_⟩
  · rw [List.map_eq_nil_iff, List.reverse_eq_nil_iff] at hnil
    subst hnil
    cases hlength
  · rw [hids, List.length_cons, List.length_map, List.length_reverse]
    exact hlength
  · obtain ⟨record, hrecord, rfl⟩ := List.mem_map.mp hm
    rw [hid]
    exact hbelow record (List.mem_cons_of_mem _ (List.mem_reverse.mp hrecord))

theorem turned_step (hb : tableBounded g) (h : g.turned) {operation : Operation}
    (hr : ¬replacesTable operation) (ho : ¬g.overfills operation) :
    (g.step operation).turned := by
  obtain ⟨newest, rest, hids, hne, hfull, hnewest⟩ := h
  rcases kept_step hb hr ho with ⟨hkept, -⟩ | ⟨hroom, -⟩
  · exact ⟨newest, rest, hkept.trans hids, hne, (congrArg List.length hkept).trans hfull, hnewest⟩
  · rw [ids_length] at hfull
    exact absurd hfull hroom.ne

/-- Behind a turned table every trim drops the newest record. -/
theorem turned_run_iff {operations : List Operation}
    (hr : ∀ operation ∈ operations, ¬replacesTable operation) (hb : tableBounded g)
    (h : g.turned) :
    (∀ call ∈ Foundation.calls step g operations, trimsOldest call) ↔
      ∀ call ∈ Foundation.calls step g operations, ¬call.1.overfills call.2 := by
  induction operations generalizing g with
  | nil => simp
  | cons operation rest ih =>
    obtain ⟨hfirst, hrest⟩ := List.forall_mem_cons.mp hr
    rw [Foundation.calls_cons, List.forall_mem_cons, List.forall_mem_cons]
    by_cases ho : g.overfills operation
    · exact ⟨fun hall => absurd (hall.1 ho) (not_oldestFirst_of_turned h),
        fun hall => absurd ho hall.1⟩
    · rw [ih hrest (tableBounded_step g operation hb) (turned_step hb h hfirst ho)]
      exact and_congr_left' ⟨fun _ => ho, fun _ hover => absurd hover ho⟩

/-- Only the first trim of an untrimmed table drops the oldest record. -/
theorem untrimmed_run_iff {operations : List Operation}
    (hr : ∀ operation ∈ operations, ¬replacesTable operation) (hb : tableBounded g)
    (h : Untrimmed g) :
    (∀ call ∈ Foundation.calls step g operations, trimsOldest call) ↔
      (Foundation.calls step g operations).Pairwise fun a b =>
        ¬(a.1.overfills a.2 ∧ b.1.overfills b.2) := by
  induction operations generalizing g with
  | nil => simp
  | cons operation rest ih =>
    obtain ⟨hfirst, hrest⟩ := List.forall_mem_cons.mp hr
    have hbounded := tableBounded_step g operation hb
    rw [Foundation.calls_cons, List.forall_mem_cons, List.pairwise_cons]
    have hhead : trimsOldest (g, operation) := fun _ => h.oldestFirst
    by_cases ho : g.overfills operation
    · rw [turned_run_iff hrest hbounded (h.turned ho)]
      constructor
      · rintro ⟨-, hnone⟩
        refine ⟨fun call hc hboth => hnone call hc hboth.2, ?_⟩
        exact List.Pairwise.imp_of_mem (fun ha _ _ hboth => hnone _ ha hboth.1)
          (List.pairwise_of_forall fun _ _ => trivial)
      · rintro ⟨hlater, -⟩
        exact ⟨hhead, fun call hc hover => hlater call hc ⟨ho, hover⟩⟩
    · rw [ih hrest hbounded (h.step hb hfirst ho)]
      refine ⟨fun hall => ⟨fun call _ hboth => ho hboth.1, hall.2⟩, fun hall => ⟨hhead, hall.2⟩⟩

/-- From the constructor on, as long as the table is not replaced, the oldest record is dropped
exactly when no two windows issue over a full table. -/
theorem run_trims_oldest_iff (config : GovernorConfig) {operations : List Operation}
    (hr : ∀ operation ∈ operations, ¬replacesTable operation) :
    (∀ call ∈ calls config operations, trimsOldest call) ↔
      (calls config operations).Pairwise fun a b =>
        ¬(a.1.overfills a.2 ∧ b.1.overfills b.2) :=
  untrimmed_run_iff hr (tableBounded_create config) (untrimmed_create config)

end Governor

end IncastGovernor
