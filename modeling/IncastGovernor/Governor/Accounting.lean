import IncastGovernor.Foundation.Unwinding
import IncastGovernor.Governor.Terminal

/-! The accounts. An evaluation counts as a refusal or as an evaluation and moves the state
generation, whichever exit it takes; an issue counts once more and takes the next identity. The
generation counts every evaluation and more, so while it has not come to its end no counter has. -/

namespace IncastGovernor

namespace Governor

variable {g : Governor} {bundle : EvidenceBundle}

/-! ### One evaluation -/

/-- No record of the table is live. -/
def vacant (table : List Intervention) : Prop := ∀ record ∈ table, ¬record.live

/-- What an evaluation with this decision leaves of the accounts. -/
structure Accounts (g : Governor) (decision : Decision) (after : GovernorState) : Prop where
  generation : after.generation = g.state.generation.next
  decided : decision.stateGeneration = after.generation
  refused : decision.outcome = .refused →
    after.refusalCount = g.state.refusalCount + 1 ∧
      after.evaluationCount = g.state.evaluationCount
  evaluated : decision.outcome ≠ .refused →
    after.refusalCount = g.state.refusalCount ∧
      after.evaluationCount = g.state.evaluationCount + 1
  issued : decision.outcome = .interventionIssued →
    after.interventionCount = g.state.interventionCount + 1 ∧
      after.nextInterventionGeneration = g.state.nextInterventionGeneration.next ∧
      decision.intervention.value = g.state.nextInterventionGeneration.value ∧
      vacant g.state.interventions ∧ ¬vacant after.interventions
  unissued : decision.outcome ≠ .interventionIssued →
    after.interventionCount = g.state.interventionCount ∧
      after.nextInterventionGeneration = g.state.nextInterventionGeneration

/-- The streak accounting touches no count. -/
theorem countedState_accounts (g : Governor) (bundle : EvidenceBundle) :
    (g.countedState bundle).generation = g.state.generation ∧
      (g.countedState bundle).refusalCount = g.state.refusalCount ∧
      (g.countedState bundle).evaluationCount = g.state.evaluationCount ∧
      (g.countedState bundle).interventionCount = g.state.interventionCount := by
  unfold countedState
  simp only
  split_ifs <;> exact ⟨rfl, rfl, rfl, rfl⟩

/-- Nor does an effect, an issue apart. -/
theorem effectState_accounts (g : Governor) (bundle : EvidenceBundle) (effect : Effect) :
    (g.effectState bundle effect).generation = g.state.generation ∧
      (g.effectState bundle effect).refusalCount = g.state.refusalCount ∧
      (g.effectState bundle effect).evaluationCount = g.state.evaluationCount ∧
      (g.effectState bundle effect).interventionCount =
        match effect with
        | .issue _ => g.state.interventionCount + 1
        | _ => g.state.interventionCount := by
  obtain ⟨hgeneration, hrefused, hevaluated, hissued⟩ := countedState_accounts g bundle
  rw [← hgeneration, ← hrefused, ← hevaluated, ← hissued]
  cases effect with
  | noAction live => cases live <;> exact ⟨rfl, rfl, rfl, rfl⟩
  | _ => exact ⟨rfl, rfl, rfl, rfl⟩

theorem refuse_accounts (decision : Decision) (reason : RefusalReason) (detail : Text) :
    Accounts g (g.refuse decision reason detail).1 (g.refuse decision reason detail).2.state where
  generation := rfl
  decided := rfl
  refused _ := ⟨rfl, rfl⟩
  evaluated h := absurd rfl h
  issued h := absurd h DecisionOutcome.noConfusion
  unissued _ := ⟨rfl, rfl⟩

theorem fence_accounts (view : LiveView) (reason : RefusalReason) (detail : Text) :
    Accounts g (g.fence bundle view reason detail).1
      (g.fence bundle view reason detail).2.state := by
  obtain ⟨hgeneration, hrefused, hevaluated, hissued⟩ := countedState_accounts g bundle
  exact
    { generation := congrArg Generation.next hgeneration
      decided := rfl
      refused := fun h => absurd h DecisionOutcome.noConfusion
      evaluated := fun _ => ⟨hrefused, congrArg (· + 1) hevaluated⟩
      issued := fun h => absurd h DecisionOutcome.noConfusion
      unissued := fun _ => ⟨hissued, countedState_next g bundle⟩ }

/-- Only an issue is decided as one. -/
theorem effectDecision_issued {effect : Effect}
    (h : (g.effectDecision bundle effect).outcome = .interventionIssued) :
    ∃ record, effect = .issue record := by
  cases effect with
  | issue record => exact ⟨record, rfl⟩
  | _ => cases h

theorem effectDecision_not_refused (effect : Effect) :
    (g.effectDecision bundle effect).outcome ≠ .refused := by
  cases effect <;> exact DecisionOutcome.noConfusion

theorem commit_accounts (h : g.accepts bundle) (hf : g.liveFence bundle = none) :
    Accounts g (g.commit bundle (g.effect bundle)).1
      (g.commit bundle (g.effect bundle)).2.state := by
  obtain ⟨hgeneration, hrefused, hevaluated, hissued⟩ :=
    effectState_accounts g bundle (g.effect bundle)
  have hnext := effectState_next g bundle (g.effect bundle)
  refine
    { generation := congrArg Generation.next hgeneration
      decided := rfl
      refused := fun hr => absurd hr (effectDecision_not_refused _)
      evaluated := fun _ => ⟨hrefused, congrArg (· + 1) hevaluated⟩
      issued := fun hi => ?_
      unissued := fun hn => ?_ }
  · obtain ⟨record, heffect⟩ := effectDecision_issued hi
    have hby := effect_by g bundle
    rw [heffect] at hissued hnext hby ⊢
    cases hby with
    | issue hl ha =>
      have hvacant := (liveRecord_eq_none hf).mp hl
      refine ⟨hissued, hnext, issuedRecord_id ⟨h, hf, hvacant, ha⟩, findLive_eq_none.mp hvacant,
        fun hv => ?_⟩
      exact hv (g.issuedRecord bundle) (mem_trimInterventions_of_live
        (List.mem_append_right _ (List.mem_singleton.mpr rfl)) issuedRecord_live) issuedRecord_live
  · have hother : ∀ record, g.effect bundle ≠ .issue record := by
      intro record heffect
      rw [commit_outcome, heffect] at hn
      exact hn rfl
    generalize g.effect bundle = effect at hissued hnext hother ⊢
    cases effect with
    | issue record => exact absurd rfl (hother record)
    | _ => exact ⟨hissued, hnext⟩

/-- Every exit keeps the accounts. -/
theorem evaluate_accounts (g : Governor) (bundle : EvidenceBundle) :
    Accounts g (g.evaluate bundle).1 (g.evaluate bundle).2.state := by
  rcases evaluate_cases g bundle with ⟨_, decision, reason, detail, he⟩ |
    ⟨_, view, denial, _, _, he⟩ | ⟨h, hf, he⟩
  · rw [he]
    exact refuse_accounts decision reason detail
  · rw [he]
    exact fence_accounts view denial.1 denial.2
  · rw [he]
    exact commit_accounts h hf

/-! ### Runs -/

/-- The decision of an operation that makes one. -/
def decided (g : Governor) : Operation → List Decision
  | .evaluate bundle => [(g.evaluate bundle).1]
  | _ => []

/-- The decisions of a run, in order. -/
def decisionsOf (g : Governor) (operations : List Operation) : List Decision :=
  Foundation.shown step decided g operations

def isEvaluate : Operation → Bool
  | .evaluate _ => true
  | _ => false

/-- The identities the decisions issue, in order. -/
def issuedIds (decisions : List Decision) : List ℕ :=
  (decisions.filter fun decision => decision.outcome = .interventionIssued).map
    fun decision => decision.intervention.value.toNat

def refusedCount (decisions : List Decision) : ℕ :=
  decisions.countP fun decision => decision.outcome = .refused

/-- The counters of a state agree with the decisions behind it. -/
structure AccountedFor (state : GovernorState) (decisions : List Decision) : Prop where
  evaluated : state.evaluationCount.toNat + state.refusalCount.toNat = decisions.length
  refused : state.refusalCount.toNat = refusedCount decisions
  issued : state.interventionCount.toNat = (issuedIds decisions).length
  next : state.nextInterventionGeneration.value.toNat - 1 = (issuedIds decisions).length
  ids : issuedIds decisions = List.range' 1 (issuedIds decisions).length
  generations :
    decisions.Pairwise fun a b => a.stateGeneration.value < b.stateGeneration.value

/-- The run invariant. The generation bounds whatever is counted. -/
structure Ledger (state : GovernorState) (decisions : List Decision) : Prop where
  accounts : AccountedFor state decisions
  present : state.nextInterventionGeneration.value.toNat ≠ 0
  covered : decisions.length ≤ state.generation.value.toNat
  latest : ∀ decision ∈ decisions, decision.stateGeneration.value ≤ state.generation.value
  -- between two issues the first record ends, which moves the generation too
  spaced : vacant state.interventions → issuedIds decisions = [] ∨
    (issuedIds decisions).length < state.generation.value.toNat

/-- The operation moves the state generation. -/
def advancesGeneration (g : Governor) : Operation → Prop
  | .evaluate _ | .shutdown _ => True
  | .retire id now reason => ∃ table, retireIn id now reason g.state.interventions = .ok table
  | _ => False

/-- It moves the last one. -/
def exhaustsGenerations (g : Governor) (operation : Operation) : Prop :=
  g.advancesGeneration operation ∧ g.state.generation.value = u64Max

theorem next_toNat {generation : StateGeneration} (h : generation.value ≠ u64Max) :
    generation.next.value.toNat = generation.value.toNat + 1 := by
  have hne : generation.value.toNat ≠ 2 ^ 64 - 1 := by
    intro he
    exact h (UInt64.toNat_inj.mp (he.trans u64Max_toNat.symm))
  have hlt := generation.value.toNat_lt
  show (generation.value + 1).toNat = _
  rw [UInt64.toNat_add]
  show (generation.value.toNat + 1) % 2 ^ 64 = _
  omega

/-- A count below the end of its range is one more behind an increment. -/
theorem succ_toNat {count : UInt64} (h : count.toNat + 1 < 2 ^ 64) :
    (count + 1).toNat = count.toNat + 1 := by
  rw [UInt64.toNat_add]
  exact Nat.mod_eq_of_lt h

theorem issuedIds_append (decisions : List Decision) (decision : Decision) :
    issuedIds (decisions ++ [decision]) = issuedIds decisions ++
      if decision.outcome = .interventionIssued then [decision.intervention.value.toNat] else [] := by
  unfold issuedIds
  rw [List.filter_append, List.map_append]
  by_cases h : decision.outcome = .interventionIssued <;> simp [h]

theorem refusedCount_append (decisions : List Decision) (decision : Decision) :
    refusedCount (decisions ++ [decision]) =
      refusedCount decisions + if decision.outcome = .refused then 1 else 0 := by
  unfold refusedCount
  rw [List.countP_append, List.countP_singleton]
  by_cases h : decision.outcome = .refused <;> simp [h]

theorem issuedIds_length_le (decisions : List Decision) :
    (issuedIds decisions).length ≤ decisions.length := by
  unfold issuedIds
  rw [List.length_map]
  exact List.length_filter_le _ _

/-- One more decision is counted as refused or as evaluated. -/
theorem Ledger.counted {decisions : List Decision} (hl : Ledger g.state decisions)
    {decision : Decision} {after : GovernorState} (ha : Accounts g decision after)
    (hfits : g.state.generation.value.toNat + 1 < 2 ^ 64) :
    after.evaluationCount.toNat + after.refusalCount.toNat = decisions.length + 1 ∧
      after.refusalCount.toNat = refusedCount (decisions ++ [decision]) := by
  have hcovered := hl.covered
  have hcount := hl.accounts.evaluated
  rw [refusedCount_append, ← hl.accounts.refused]
  by_cases hr : decision.outcome = .refused
  · obtain ⟨hrefused, hevaluated⟩ := ha.refused hr
    rw [if_pos hr, hrefused, hevaluated, succ_toNat (by omega)]
    exact ⟨by omega, rfl⟩
  · obtain ⟨hrefused, hevaluated⟩ := ha.evaluated hr
    rw [if_neg hr, hrefused, hevaluated, succ_toNat (by omega)]
    exact ⟨by omega, rfl⟩

/-- An issue takes the next identity; no other decision takes one. -/
theorem Ledger.numbered {decisions : List Decision} (hl : Ledger g.state decisions)
    {decision : Decision} {after : GovernorState} (ha : Accounts g decision after)
    (hfits : g.state.generation.value.toNat + 1 < 2 ^ 64) :
    after.interventionCount.toNat = (issuedIds (decisions ++ [decision])).length ∧
      after.nextInterventionGeneration.value.toNat =
        (issuedIds (decisions ++ [decision])).length + 1 ∧
      issuedIds (decisions ++ [decision]) =
        List.range' 1 (issuedIds (decisions ++ [decision])).length := by
  have hissued := hl.accounts.issued
  have hnext := hl.accounts.next
  have hpresent := hl.present
  have hcovered := hl.covered
  have hids := issuedIds_length_le decisions
  rw [issuedIds_append]
  by_cases hi : decision.outcome = .interventionIssued
  · obtain ⟨hcounted, hmoved, hid, hvacant, -⟩ := ha.issued hi
    have hspaced : (issuedIds decisions).length + 2 < 2 ^ 64 := by
      rcases hl.spaced hvacant with hnone | hless
      · rw [hnone]
        decide
      · omega
    have hfollows : decision.intervention.value.toNat = 1 + (issuedIds decisions).length := by
      rw [hid]
      omega
    have hnew : after.nextInterventionGeneration.value.toNat =
        g.state.nextInterventionGeneration.value.toNat + 1 := by
      rw [hmoved]
      exact succ_toNat (by omega)
    rw [if_pos hi, hcounted, succ_toNat (by omega), List.length_append, List.length_singleton,
      List.range'_1_concat, ← hl.accounts.ids, hfollows]
    exact ⟨by omega, by omega, rfl⟩
  · obtain ⟨hcounted, hkept⟩ := ha.unissued hi
    rw [if_neg hi, List.append_nil, hcounted, hkept]
    exact ⟨hissued, by omega, hl.accounts.ids⟩

/-- An evaluation puts its decision into the ledger. -/
theorem Ledger.evaluated {decisions : List Decision} (hl : Ledger g.state decisions)
    {decision : Decision} {after : GovernorState} (ha : Accounts g decision after)
    (hroom : g.state.generation.value ≠ u64Max) : Ledger after (decisions ++ [decision]) := by
  have hgeneration : after.generation.value.toNat = g.state.generation.value.toNat + 1 := by
    rw [ha.generation]
    exact next_toNat hroom
  have hlt := after.generation.value.toNat_lt
  have hcovered := hl.covered
  have hids := issuedIds_length_le decisions
  have hcounts := hl.counted ha (by omega)
  have hissues := hl.numbered ha (by omega)
  have hlength : (decisions ++ [decision]).length = decisions.length + 1 := by
    rw [List.length_append, List.length_singleton]
  have hlater : ∀ earlier ∈ decisions,
      earlier.stateGeneration.value < decision.stateGeneration.value := by
    intro earlier hearlier
    have hle := UInt64.le_iff_toNat_le.mp (hl.latest earlier hearlier)
    rw [ha.decided, UInt64.lt_iff_toNat_lt]
    omega
  exact
    { accounts :=
        { evaluated := hcounts.1.trans hlength.symm
          refused := hcounts.2
          issued := hissues.1
          next := by omega
          ids := hissues.2.2
          generations := List.pairwise_append.mpr
            ⟨hl.accounts.generations, List.pairwise_singleton _ _,
              fun earlier hearlier _ hlast => by
                rw [List.mem_singleton.mp hlast]
                exact hlater earlier hearlier⟩ }
      present := by omega
      covered := by omega
      latest := by
        intro earlier hearlier
        rcases List.mem_append.mp hearlier with hold | hnew
        · have hle := UInt64.le_iff_toNat_le.mp (hl.latest earlier hold)
          rw [UInt64.le_iff_toNat_le]
          omega
        · rw [List.mem_singleton.mp hnew, ha.decided]
          exact UInt64.le_refl _
      spaced := by
        intro hvacant
        by_cases hi : decision.outcome = .interventionIssued
        · exact absurd hvacant (ha.issued hi).2.2.2.2
        · rw [issuedIds_append, if_neg hi, List.append_nil]
          right
          omega }

/-- What keeps the counters keeps the ledger, if it moves the generation or ends no record. -/
theorem Ledger.kept {before after : GovernorState} {decisions : List Decision}
    (hl : Ledger before decisions) (hevaluated : after.evaluationCount = before.evaluationCount)
    (hrefused : after.refusalCount = before.refusalCount)
    (hissued : after.interventionCount = before.interventionCount)
    (hnext : after.nextInterventionGeneration = before.nextInterventionGeneration)
    (hgeneration : before.generation.value.toNat < after.generation.value.toNat ∨
      before.generation = after.generation ∧
        (vacant after.interventions → vacant before.interventions)) :
    Ledger after decisions where
  accounts :=
    { hl.accounts with
      evaluated := by rw [hevaluated, hrefused, hl.accounts.evaluated]
      refused := by rw [hrefused, hl.accounts.refused]
      issued := by rw [hissued, hl.accounts.issued]
      next := by rw [hnext, hl.accounts.next] }
  present := by
    rw [hnext]
    exact hl.present
  covered := by
    rcases hgeneration with hmoved | ⟨hsame, -⟩
    · exact hl.covered.trans hmoved.le
    · rw [← hsame]
      exact hl.covered
  latest decision hd := by
    rcases hgeneration with hmoved | ⟨hsame, -⟩
    · rw [UInt64.le_iff_toNat_le]
      exact (UInt64.le_iff_toNat_le.mp (hl.latest decision hd)).trans hmoved.le
    · rw [← hsame]
      exact hl.latest decision hd
  spaced hvacant := by
    rcases hgeneration with hmoved | ⟨hsame, hended⟩
    · have hcovered := hl.covered
      have hids := issuedIds_length_le decisions
      right
      omega
    · rw [← hsame]
      exact hl.spaced (hended hvacant)

/-- A changed policy ends no record. -/
theorem vacant_of_revalidated (policy : GovernorPolicy) (now : Timestamp)
    {table : List Intervention} (h : vacant (table.map (revalidateRecord policy now))) :
    vacant table := by
  intro record hrecord hlive
  refine h _ (List.mem_map_of_mem hrecord) ?_
  unfold Intervention.live
  rw [(revalidateRecord_live policy now hlive).state]
  decide

/-- One operation in service, short of the last generation. -/
theorem ledger_step {decisions : List Decision} {operation : Operation}
    (hl : Ledger g.state decisions) (hs : inService operation)
    (he : ¬g.exhaustsGenerations operation) :
    Ledger (g.step operation).state (decisions ++ g.decided operation) := by
  have hmoved : g.advancesGeneration operation →
      g.state.generation.value.toNat < g.state.generation.next.value.toNat := by
    intro ha
    rw [next_toNat fun hm => he ⟨ha, hm⟩]
    exact Nat.lt_succ_self _
  by_cases hevaluate : ∃ bundle, operation = .evaluate bundle
  · obtain ⟨bundle, rfl⟩ := hevaluate
    exact hl.evaluated (evaluate_accounts g bundle) fun hm => he ⟨trivial, hm⟩
  · have hnone : g.decided operation = [] := by
      cases operation with
      | evaluate bundle => exact absurd ⟨bundle, rfl⟩ hevaluate
      | _ => rfl
    rw [hnone, List.append_nil]
    have hby := step_by g operation
    generalize g.step operation = after at hby ⊢
    cases hby with
    | evaluated bundle => exact absurd ⟨bundle, rfl⟩ hevaluate
    | retired hr => exact hl.kept rfl rfl rfl rfl (Or.inl (hmoved ⟨_, hr⟩))
    | stopped now => exact hl.kept rfl rfl rfl rfl (Or.inl (hmoved trivial))
    | @policyChanged policy now =>
      exact hl.kept rfl rfl rfl rfl (Or.inr ⟨rfl, vacant_of_revalidated policy now⟩)
    | restoreRefused => exact hs.elim
    | restored => exact hs.elim
    | reset => exact hs.elim
    | _ => exact hl.kept rfl rfl rfl rfl (Or.inr ⟨rfl, id⟩)

theorem ledger_run {decisions : List Decision} {operations : List Operation}
    (hl : Ledger g.state decisions) (hs : ∀ operation ∈ operations, inService operation)
    (he : ∀ call ∈ Foundation.calls step g operations, ¬call.1.exhaustsGenerations call.2) :
    Ledger (Foundation.run step g operations).state (decisions ++ decisionsOf g operations) := by
  induction operations generalizing g decisions with
  | nil =>
    have hnone : decisions ++ decisionsOf g [] = decisions := List.append_nil _
    rw [hnone]
    exact hl
  | cons operation rest ih =>
    rw [Foundation.calls_cons, List.forall_mem_cons] at he
    rw [List.forall_mem_cons] at hs
    have hfirst := ledger_step hl hs.1 he.1
    have hshown : decisionsOf g (operation :: rest) =
        g.decided operation ++ decisionsOf (g.step operation) rest := rfl
    rw [hshown, ← List.append_assoc, Foundation.run_cons]
    exact ih hfirst hs.2 he.2

/-- There is one decision for each evaluation. -/
theorem decisionsOf_length (g : Governor) (operations : List Operation) :
    (decisionsOf g operations).length = operations.countP isEvaluate := by
  induction operations generalizing g with
  | nil => rfl
  | cons operation rest ih =>
    have hshown : decisionsOf g (operation :: rest) =
        g.decided operation ++ decisionsOf (g.step operation) rest := rfl
    rw [hshown, List.length_append, ih, List.countP_cons]
    cases operation <;> simp [decided, isEvaluate, Nat.add_comm]

/-- Every run in service that does not come to the last generation is accounted for. -/
theorem run_accounted (config : GovernorConfig) (operations : List Operation)
    (hs : ∀ operation ∈ operations, inService operation)
    (he : ∀ call ∈ calls config operations, ¬call.1.exhaustsGenerations call.2) :
    (decisionsOf (create config) operations).length = operations.countP isEvaluate ∧
      AccountedFor (Foundation.run step (create config) operations).state
        (decisionsOf (create config) operations) := by
  have hfresh : Ledger (create config).state [] :=
    { accounts := ⟨rfl, rfl, rfl, rfl, rfl, List.Pairwise.nil⟩
      present := Nat.one_ne_zero
      covered := Nat.zero_le _
      latest := List.forall_mem_nil _
      spaced := fun _ => Or.inl rfl }
  exact ⟨decisionsOf_length _ _, (ledger_run hfresh hs he).accounts⟩

/-- Two windows of the sample governor. -/
theorem run_accounted_sample :
    AccountedFor (Foundation.run step (create sampleConfig)
        [.evaluate incidentWindow, .evaluate (calmWindow 2 2000000000)]).state
      (decisionsOf (create sampleConfig)
        [.evaluate incidentWindow, .evaluate (calmWindow 2 2000000000)]) := by
  refine (run_accounted sampleConfig
    [.evaluate incidentWindow, .evaluate (calmWindow 2 2000000000)] (by simp [inService]) ?_).2
  have hsecond : (step (create sampleConfig) (.evaluate incidentWindow)).state.generation =
      (create sampleConfig).state.generation.next := (evaluate_accounts _ _).generation
  rw [calls, Foundation.calls_cons, Foundation.calls_cons, Foundation.calls_nil,
    List.forall_mem_cons, List.forall_mem_singleton]
  refine ⟨fun he => absurd he.2 (by decide), fun he => ?_⟩
  have hlast := he.2
  rw [hsecond] at hlast
  exact absurd hlast (by decide)

/-! ### The end of the counters -/

theorem refused_of_unbound (h : ¬g.config.epoch.valid) (bundle : EvidenceBundle) :
    (g.evaluate bundle).1.outcome = .refused := by
  by_contra hn
  exact h (bindingGranted_of_accepts (accepts_of_not_refused hn)).bound.1

theorem refusedCount_unbound (h : ¬g.config.epoch.valid) (bundle : EvidenceBundle) (n : ℕ) :
    refusedCount (decisionsOf g (List.replicate n (.evaluate bundle))) = n := by
  induction n generalizing g with
  | zero => rfl
  | succ n ih =>
    have hshown : decisionsOf g (List.replicate (n + 1) (.evaluate bundle)) =
        [(g.evaluate bundle).1] ++
          decisionsOf (g.evaluate bundle).2 (List.replicate n (.evaluate bundle)) := rfl
    have hnext : ¬(g.evaluate bundle).2.config.epoch.valid := by
      rw [evaluate_config]
      exact h
    have hrest := ih hnext
    unfold refusedCount at hrest ⊢
    rw [hshown, List.singleton_append, List.countP_cons, hrest,
      if_pos (decide_eq_true (refused_of_unbound h bundle))]

/-- A governor that refuses as often as a counter can tell apart counts nothing. -/
theorem refusals_past_the_counter :
    (∀ operation ∈ List.replicate (2 ^ 64) (Operation.evaluate {}), inService operation) ∧
      ¬AccountedFor
        (Foundation.run step (create {}) (List.replicate (2 ^ 64) (.evaluate {}))).state
        (decisionsOf (create {}) (List.replicate (2 ^ 64) (.evaluate {}))) := by
  constructor
  · intro operation hm
    rw [List.eq_of_mem_replicate hm]
    trivial
  · intro hc
    have hcount := hc.refused
    rw [refusedCount_unbound (by decide) {} (2 ^ 64)] at hcount
    exact absurd hcount (UInt64.toNat_lt _).ne

end Governor

end IncastGovernor
