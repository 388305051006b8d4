import IncastGovernor.Governor.JsonDocument
import IncastGovernor.Governor.Window

/-! The texts of a decision. Whatever a governor reads, the notes, the detail of a refusal and the
dispositions it writes are put together from fixed words and numbers: they are short, and none has
a character that needs an escape. -/

namespace IncastGovernor

open Foundation

/-- At most so many bytes, each of which stands for itself in a string. -/
def Legible (bound : ℕ) (text : Text) : Prop :=
  text.length ≤ bound ∧ ∀ b ∈ text, Json.isPlain b

/-- A few legible notes. -/
def LegibleNotes (count : ℕ) (notes : List Text) : Prop :=
  notes.length ≤ count ∧ ∀ note ∈ notes, Legible 200 note

structure SynthesisResult.IsLegible (result : SynthesisResult) : Prop where
  notes : LegibleNotes 4 result.notes
  detail : Legible 96 result.authority.refusalDetail

/-- The texts of a decision before the notes of its window. -/
structure Decision.Drafted (decision : Decision) : Prop where
  detail : Legible 96 decision.refusalDetail
  notes : LegibleNotes 5 decision.explanation.notes
  dispositions : ∀ c ∈ decision.contributions, Legible 51 c.disposition

/-- The texts of an explanation. -/
structure Explanation.IsLegible (e : Explanation) : Prop where
  detail : Legible 96 e.refusalDetail
  headline : Legible 512 e.headline
  notes : LegibleNotes 10 e.notes
  exceptions_length : e.protectedExceptions.length ≤ kMaxExplanationNotes
  exceptions : ∀ text ∈ e.protectedExceptions, Legible 111 text
  dispositions : ∀ c ∈ e.topContributors, Legible 51 c.disposition

/-! ### Texts -/

section Texts

variable {m n : ℕ} {a b : Text}

theorem Legible.mono (h : Legible m a) (hle : m ≤ n) : Legible n a := ⟨h.1.trans hle, h.2⟩

theorem legible_nil : Legible n [] := ⟨Nat.zero_le n, fun _ hb => absurd hb List.not_mem_nil⟩

theorem Legible.append (ha : Legible m a) (hb : Legible n b) : Legible (m + n) (a ++ b) := by
  refine ⟨?_, fun c hc => (List.mem_append.mp hc).elim (ha.2 c) (hb.2 c)⟩
  rw [List.length_append]
  exact Nat.add_le_add ha.1 hb.1

theorem Legible.take (k : ℕ) (h : Legible n a) : Legible n (a.take k) := by
  refine ⟨?_, fun c hc => h.2 c (List.mem_of_mem_take hc)⟩
  rw [List.length_take]
  exact (Nat.min_le_right _ _).trans h.1

theorem isPlain_of_isDigit {d : UInt8} (h : Json.isDigit d) : Json.isPlain d := by
  simp only [Json.isDigit, decide_eq_true_eq] at h
  simp only [Json.isPlain, decide_eq_true_eq]
  refine ⟨UInt8.le_trans (by decide) h.1, fun he => ?_, fun he => ?_⟩
  · rw [he] at h
    exact absurd h (by decide)
  · rw [he] at h
    exact absurd h (by decide)

/-- So many characters at most, and each of them plain. -/
def plainWord (bound : ℕ) (characters : List Char) : Bool :=
  Nat.ble characters.length bound && characters.all fun c =>
    Nat.ble 32 c.toNat && Nat.ble c.toNat 126 && c.toNat != 34 && c.toNat != 92

theorem length_word (characters : List Char) :
    (ascii (String.ofList characters)).length = characters.length := by
  rw [ascii, List.length_map, String.toList_ofList]

/-- A fixed word. Its characters are read off the literal, which spares the bytes of the string. -/
theorem legible_word {characters : List Char} (h : plainWord n characters = true) :
    Legible n (ascii (String.ofList characters)) := by
  simp only [plainWord, Bool.and_eq_true, Nat.ble_eq, List.all_eq_true, bne_iff_ne,
    ne_eq] at h
  obtain ⟨hlength, hplain⟩ := h
  refine ⟨(length_word characters).trans_le hlength, fun d hd => ?_⟩
  rw [ascii, String.toList_ofList] at hd
  obtain ⟨c, hc, rfl⟩ := List.mem_map.mp hd
  obtain ⟨⟨⟨hlow, hhigh⟩, hquote⟩, hslash⟩ := hplain c hc
  have hvalue : c.toNat.toUInt8.toNat = c.toNat := Nat.mod_eq_of_lt (by omega)
  simp only [Json.isPlain, decide_eq_true_eq]
  refine ⟨UInt8.le_iff_toNat_le.mpr (by rw [hvalue]; exact hlow), fun he => ?_, fun he => ?_⟩
  · rw [he] at hvalue
    exact hquote hvalue.symm
  · rw [he] at hvalue
    exact hslash hvalue.symm

theorem Legible.word {characters : List Char} (ha : Legible m a)
    (h : plainWord n characters = true) : Legible (m + n) (a ++ ascii (String.ofList characters)) :=
  ha.append (legible_word h)

theorem legible_formatU64 (value : UInt64) : Legible 20 (formatU64 value) := by
  refine ⟨?_, fun d hd => isPlain_of_isDigit (Json.isDigit_writeNat (n := value.toNat) hd)⟩
  rw [formatU64, List.length_map, Nat.length_toDigits_le_iff (by decide) (by decide)]
  have hlt := value.toNat_lt
  omega

theorem legible_formatU32 (value : UInt32) : Legible 10 (formatU64 value.toUInt64) := by
  refine ⟨?_, (legible_formatU64 _).2⟩
  rw [formatU64, List.length_map, Nat.length_toDigits_le_iff (by decide) (by decide),
    UInt32.toNat_toUInt64]
  have hlt := value.toNat_lt
  omega

theorem legible_formatI64 (value : Int64) : Legible 20 (formatI64 value) := by
  have hlow := value.le_toInt
  have hhigh := value.toInt_lt
  have hdigits : Legible 19 (Json.writeNat value.toInt.natAbs) := by
    refine ⟨?_, fun d hd => isPlain_of_isDigit (Json.isDigit_writeNat hd)⟩
    rw [Json.writeNat, List.length_map, Nat.length_toDigits_le_iff (by decide) (by decide)]
    omega
  have hsign : Legible 1 [Json.byte '-'] :=
    ⟨le_rfl, fun d hd => by rw [List.mem_singleton.mp hd]; decide⟩
  rw [formatI64_eq, Json.writeInt]
  split_ifs
  · exact hsign.append hdigits
  · exact hdigits.mono (by decide)

theorem IncidentKind.legible_toText (kind : IncidentKind) : Legible 22 kind.toText := by
  cases kind <;> exact legible_word rfl

theorem Severity.legible_toText (severity : Severity) : Legible 8 severity.toText := by
  cases severity <;> exact legible_word rfl

theorem RefusalReason.legible_toText (reason : RefusalReason) : Legible 24 reason.toText := by
  cases reason <;> exact legible_word rfl

theorem EvidenceClass.legible_toText (klass : EvidenceClass) : Legible 13 klass.toText := by
  cases klass <;> exact legible_word rfl

theorem EvidenceState.legible_toText (state : EvidenceState) : Legible 13 state.toText := by
  cases state <;> exact legible_word rfl

theorem ServiceClass.legible_toText (service : ServiceClass) : Legible 16 service.toText := by
  cases service <;> exact legible_word rfl

theorem MitigationKind.legible_toText (kind : MitigationKind) : Legible 27 kind.toText := by
  cases kind <;> exact legible_word rfl

theorem MitigationScope.legible_toText (scope : MitigationScope) : Legible 11 scope.toText := by
  cases scope <;> exact legible_word rfl

theorem DecisionOutcome.legible_toText (outcome : DecisionOutcome) : Legible 21 outcome.toText := by
  cases outcome <;> exact legible_word rfl

theorem legible_boolText (value : Bool) : Legible 5 (boolText value) := by
  cases value <;> exact legible_word rfl

end Texts

/-! ### Details -/

section Details

variable {bundle : EvidenceBundle} {policy : GovernorPolicy} {last : PerClass UInt64}

/-- One branch of a chain that ends in texts. -/
theorem legible_branch {α : Type} {p : Prop} [Decidable p] {n : ℕ} {value : α} {text : Text}
    {rest : α × Text} (h : Legible n text) (hrest : Legible n rest.2) :
    Legible n (if p then (value, text) else rest).2 := by
  by_cases hp : p
  · rw [if_pos hp]
    exact h
  · rw [if_neg hp]
    exact hrest

theorem assessStamp_legible (klass : EvidenceClass) :
    Legible 72 (assessStamp bundle policy last klass).2 := by
  unfold assessStamp
  iterate 9 refine legible_branch (legible_word rfl) ?_
  exact legible_nil

theorem firstDenial_legible {denial : RefusalReason × Text}
    (h : firstDenial bundle policy last = some denial) : Legible 96 denial.2 := by
  obtain ⟨klass, -, hk⟩ := List.exists_of_findSome?_eq_some h
  simp only at hk
  split_ifs at hk with hc hd
  · rw [← Option.some.inj hk]
    exact (klass.legible_toText.word (n := 2) (by rfl) |>.word (n := 26) (by rfl)).mono (by decide)
  · rw [← Option.some.inj hk]
    exact (((klass.legible_toText).word (n := 2) (by rfl)).append
      (assessStamp_legible klass)).mono (by decide)

/-- The details of a chain of checks, one check at a time. -/
theorem legible_of_check {p : Prop} [Decidable p] {reason : RefusalReason} {detail : Text}
    {rest : Option (RefusalReason × Text)} {denial : RefusalReason × Text} (hd : Legible 96 detail)
    (hrest : rest = some denial → Legible 96 denial.2)
    (h : (if p then some (reason, detail) else rest) = some denial) : Legible 96 denial.2 := by
  by_cases hp : p
  · rw [if_pos hp] at h
    rw [← Option.some.inj h]
    exact hd
  · rw [if_neg hp] at h
    exact hrest h

theorem missingBinding_legible {denial : RefusalReason × Text} :
    missingBinding bundle policy = some denial → Legible 96 denial.2 := by
  unfold missingBinding
  iterate 4 apply legible_of_check (legible_word rfl)
  exact fun h => absurd h (Option.some_ne_none denial).symm

theorem checkAuthority_legible : Legible 96 (checkAuthority bundle policy last).detail := by
  unfold checkAuthority
  by_cases he : ¬policy.enabled = true
  · rw [if_pos he]
    dsimp only
    exact legible_word rfl
  by_cases hs : ¬bundle.structurallyValid
  · rw [if_neg he, if_pos hs]
    dsimp only
    exact legible_word rfl
  rw [if_neg he, if_neg hs]
  cases hd : firstDenial bundle policy last with
  | some denial => exact firstDenial_legible hd
  | none =>
    simp only
    by_cases hp : policy.authority.requireProvenance = true ∧
        (assessStamp bundle policy last .provenance).1 ≠ .present
    · rw [if_pos hp]
      dsimp only
      exact legible_word rfl
    · rw [if_neg hp]
      cases hb : missingBinding bundle policy with
      | some denial => exact missingBinding_legible hb
      | none => exact legible_nil

end Details

/-! ### Notes -/

section Notes

variable {m n : ℕ} {notes others : List Text}

theorem legibleNotes_nil : LegibleNotes n [] :=
  ⟨Nat.zero_le n, fun _ hnote => absurd hnote List.not_mem_nil⟩

theorem legibleNotes_singleton {note : Text} (h : Legible 200 note) : LegibleNotes 1 [note] :=
  ⟨le_rfl, fun _ hnote => List.mem_singleton.mp hnote ▸ h⟩

theorem LegibleNotes.mono (h : LegibleNotes m notes) (hle : m ≤ n) : LegibleNotes n notes :=
  ⟨h.1.trans hle, h.2⟩

theorem LegibleNotes.append (h : LegibleNotes m notes) (ho : LegibleNotes n others) :
    LegibleNotes (m + n) (notes ++ others) := by
  refine ⟨?_, fun note hnote => (List.mem_append.mp hnote).elim (h.2 note) (ho.2 note)⟩
  rw [List.length_append]
  exact Nat.add_le_add h.1 ho.1

theorem LegibleNotes.take (h : LegibleNotes m notes) (k : ℕ) : LegibleNotes m (notes.take k) := by
  refine ⟨?_, fun note hnote => h.2 note (List.mem_of_mem_take hnote)⟩
  rw [List.length_take]
  exact (Nat.min_le_right _ _).trans h.1

/-- A note made under a condition. -/
theorem legibleNotes_ite {p : Prop} [Decidable p] {note : Text} (h : Legible 200 note) :
    LegibleNotes 1 (if p then [note] else []) := by
  split_ifs
  · exact legibleNotes_singleton h
  · exact legibleNotes_nil

theorem legible_summary (evidence : SynchronizationEvidence) : Legible 200 evidence.summary := by
  unfold SynchronizationEvidence.summary
  by_cases h : ¬evidence.evaluated = true
  · rw [if_pos h]
    exact legible_word rfl
  · rw [if_neg h]
    refine (Legible.append (m := 11) (legible_word (by rfl)) (legible_formatU32 _)
      |>.word (n := 14) (by rfl) |>.append (legible_formatU32 _)
      |>.word (n := 11) (by rfl) |>.append (legible_formatI64 _)
      |>.word (n := 10) (by rfl) |>.append (legible_formatI64 _)
      |>.word (n := 16) (by rfl) |>.append (legible_formatU32 _)
      |>.word (n := 10) (by rfl) |>.append (legible_formatU32 _)
      |>.append (n := 25) ?_ |>.mono (by decide))
    split_ifs <;> exact legible_word rfl

theorem evidenceNotes_legible (metrics : FanInMetrics) (synchronization : SynchronizationEvidence)
    (contributions : List SenderContribution) :
    LegibleNotes 4 (evidenceNotes metrics synchronization contributions) :=
  (((legibleNotes_ite (legible_summary _)).append (legibleNotes_ite (legible_word (by rfl)))).append
    (legibleNotes_ite (legible_word (by rfl)))).append (legibleNotes_ite (legible_word (by rfl)))

theorem applyHysteresis_legible (policy : GovernorPolicy) (context : ClassificationContext)
    (instantaneous : IncidentKind) :
    LegibleNotes 1 (applyHysteresis policy context instantaneous).2.2 := by
  unfold applyHysteresis
  simp only
  split_ifs
  all_goals first
    | exact legibleNotes_nil
    | exact legibleNotes_singleton (legible_word (by rfl))

theorem classify_notes_legible (bundle : EvidenceBundle) (policy : GovernorPolicy)
    (collisions : List SenderCollision) (context : ClassificationContext) :
    LegibleNotes 5 (classify bundle policy collisions context).notes := by
  unfold classify
  by_cases hr : (checkAuthority bundle policy noSequences).reason ≠ .none
  · simp only [if_pos hr]
    refine (legibleNotes_singleton ?_).mono (by decide)
    exact (Legible.append (m := 18) (legible_word (by rfl)) (RefusalReason.legible_toText _)).mono
      (by decide)
  · simp only [if_neg hr]
    exact (applyHysteresis_legible _ _ _).append (evidenceNotes_legible _ _ _)

end Notes

/-! ### Syntheses -/

section Synthesis

variable {request : SynthesisRequest} {bundle : EvidenceBundle} {policy : GovernorPolicy}
  {classification : Classification} {intent : MitigationIntent} {authority : AuthorityVector}

theorem refuse_legible {reason : RefusalReason} {detail note : Text} (hd : Legible 96 detail)
    (hn : Legible 200 note) : (SynthesisResult.refuse intent authority reason detail note).IsLegible :=
  ⟨(legibleNotes_singleton hn).mono (by decide), hd⟩

theorem describeRefusal_legible {reason : RefusalReason} {detail : Text} (h : Legible 96 detail) :
    Legible 200 (describeRefusal reason detail) := by
  unfold describeRefusal
  split_ifs
  · exact (reason.legible_toText.append (legible_nil (n := 0))).mono (by decide)
  · exact (reason.legible_toText.append (Legible.append (m := 2) (legible_word (by rfl)) h)).mono
      (by decide)

theorem synthesizeRecovery_legible (h : Legible 96 authority.refusalDetail) :
    (synthesizeRecovery request bundle policy intent authority).IsLegible := by
  unfold synthesizeRecovery
  by_cases he : ¬policy.recovery.enabled = true
  · rw [if_pos he]
    exact refuse_legible (legible_word (by rfl)) (legible_word (by rfl))
  rw [if_neg he]
  cases request.prior.filter fun prior => prior.active with
  | none => exact refuse_legible (legible_word (by rfl)) (legible_word (by rfl))
  | some prior =>
    simp only
    split_ifs
    · exact ⟨(legibleNotes_singleton (legible_word (by rfl))).mono (by decide), h⟩
    · exact ⟨(legibleNotes_singleton (legible_word (by rfl))).mono (by decide), h⟩

theorem sizeAction_legible {action : SizedAction} (h : sizeAction policy classification = some action) :
    LegibleNotes 1 action.notes := by
  unfold sizeAction at h
  simp only at h
  split_ifs at h
  · rw [← Option.some.inj h]
    exact legibleNotes_nil
  · rw [← Option.some.inj h]
    exact legibleNotes_nil
  · rw [← Option.some.inj h]
    unfold admissionAction
    simp only
    split_ifs <;> exact legibleNotes_singleton (legible_word (by rfl))

theorem synthesizeIncident_legible :
    (synthesizeIncident request bundle policy classification intent authority).IsLegible := by
  unfold synthesizeIncident
  cases hs : sizeAction policy classification with
  | none => exact refuse_legible (legible_word (by rfl)) (legible_word (by rfl))
  | some action =>
    simp only
    have hrelief : LegibleNotes 1
        (if (headroomRelief bundle policy classification action).isSome = true then
          [ascii "buffer headroom relief included (bounded)"] else []) :=
      legibleNotes_ite (legible_word (by rfl))
    have hnotes := (sizeAction_legible hs).append hrelief
    by_cases hf : residualDemand (requiredReduction policy classification) action.achievable > 0 ∧
        floorConflict classification.metrics
          (sizedIntent request bundle policy classification action) ∧
        ¬policy.protection.escalateInsteadOfViolatingFloor = true
    · rw [if_pos hf]
      refine ⟨(hnotes.append (legibleNotes_singleton (legible_word (by rfl)))).mono (by decide), ?_⟩
      dsimp only
      exact legible_word rfl
    · rw [if_neg hf]
      exact ⟨(hnotes.append (legibleNotes_ite (legible_word (by rfl)))).append
        (legibleNotes_ite (legible_word (by rfl))), legible_nil⟩

theorem synthesizeWindow_legible (hc : Legible 96 request.check.detail)
    (hd : Legible 96 classification.refusalDetail) :
    (synthesizeWindow request bundle policy classification).IsLegible := by
  unfold synthesizeWindow
  simp only
  by_cases hr : request.check.reason ≠ .none
  · rw [if_pos hr]
    exact refuse_legible hc (describeRefusal_legible hc)
  rw [if_neg hr]
  by_cases he : ¬policy.enabled = true
  · rw [if_pos he]
    exact refuse_legible (legible_word (by rfl)) (legible_word (by rfl))
  rw [if_neg he]
  cases classification.kind with
  | unknown => exact refuse_legible hd (legible_word (by rfl))
  | noFanIn => exact refuse_legible (legible_word (by rfl)) (legible_word (by rfl))
  | ordinaryManyToOne => exact refuse_legible (legible_word (by rfl)) (legible_word (by rfl))
  | recovery => exact synthesizeRecovery_legible legible_nil
  | synchronizedIncastRisk => exact synthesizeIncident_legible
  | activeIncast => exact synthesizeIncident_legible

end Synthesis

/-! ### Explanations -/

theorem disposition_legible (sender : SenderObservation)
    (isCollided isProtected isSynchronized : Bool) :
    Legible 51 (disposition sender isCollided isProtected isSynchronized) := by
  unfold disposition
  split_ifs <;> exact legible_word rfl

theorem classify_disposition_legible {bundle : EvidenceBundle} {policy : GovernorPolicy}
    {collisions : List SenderCollision} {context : ClassificationContext} {c : SenderContribution}
    (h : c ∈ (classify bundle policy collisions context).contributions) :
    Legible 51 c.disposition := by
  unfold classify at h
  simp only at h
  split_ifs at h
  · exact absurd h List.not_mem_nil
  all_goals
    obtain ⟨row, -, rfl⟩ := exists_row_of_mem_rankContributions h
    exact disposition_legible _ _ _ _

theorem protectedException_legible (c : SenderContribution) : Legible 111 (protectedException c) := by
  unfold protectedException
  refine (Legible.append (m := 7) (legible_word (by rfl)) (legible_formatU64 _)
    |>.word (n := 13) (by rfl) |>.append (legible_formatU64 _)
    |>.word (n := 7) (by rfl) |>.append c.service.legible_toText
    |>.word (n := 8) (by rfl) |>.append (n := 20) ?_ |>.mono (by decide))
  split_ifs <;> exact legible_word rfl

theorem headlineOf_legible (decision : Decision) : Legible 512 (headlineOf decision) := by
  refine Legible.take 512 (Legible.word (IncidentKind.legible_toText _) (n := 10) (by rfl)
    |>.append (Severity.legible_toText _) |>.word (n := 9) (by rfl)
    |>.append (legible_formatU64 _) |>.word (n := 13) (by rfl)
    |>.append (legible_formatU64 _) |>.word (n := 14) (by rfl)
    |>.append (legible_formatU64 _) |>.word (n := 21) (by rfl)
    |>.append (legible_formatU64 _) |>.word (n := 9) (by rfl)
    |>.append (DecisionOutcome.legible_toText _) |>.word (n := 12) (by rfl)
    |>.append (MitigationKind.legible_toText _) |>.word (n := 14) (by rfl)
    |>.append (legible_formatU64 _) |>.word (n := 12) (by rfl)
    |>.append (legible_boolText _) |>.word (n := 9) (by rfl)
    |>.append (RefusalReason.legible_toText _) |>.mono (by decide))

theorem buildExplanation_legible {decision : Decision} {contributions : List SenderContribution}
    {maxContributors : ℕ} (hd : Legible 96 decision.refusalDetail)
    (hn : LegibleNotes 10 decision.explanation.notes)
    (hc : ∀ c ∈ decision.contributions, Legible 51 c.disposition) :
    (buildExplanation decision contributions maxContributors).IsLegible := by
  have hheadline := headlineOf_legible decision
  unfold buildExplanation
  constructor
  · exact hd
  · simp only
    exact hheadline
  · simp only
    split_ifs
    · refine (legibleNotes_singleton ?_).mono (by decide)
      exact (Legible.append (m := 27) (legible_word (by rfl)) decision.refusal.legible_toText).mono
        (by decide)
    · exact hn.take _
  · exact List.length_take_le _ _
  · intro text ht
    obtain ⟨c, -, rfl⟩ := List.mem_map.mp (List.mem_of_mem_take ht)
    exact protectedException_legible c
  · exact fun c h => hc c (List.mem_of_mem_take h)

/-! ### Decisions -/

namespace Governor

variable {g : Governor} {bundle : EvidenceBundle}

theorem bindingRefusal_legible {denial : RefusalReason × Text} :
    g.bindingRefusal bundle = some denial → Legible 96 denial.2 := by
  unfold bindingRefusal
  iterate 11 apply legible_of_check (legible_word rfl)
  exact fun h => absurd h (Option.some_ne_none denial).symm

theorem isFenced_legible {record : Intervention} {context : FenceContext}
    {denial : RefusalReason × Text} :
    isFenced record context = some denial → Legible 96 denial.2 := by
  unfold isFenced
  iterate 6 apply legible_of_check (legible_word rfl)
  exact fun h => absurd h (Option.some_ne_none denial).symm

theorem classify_detail_legible (policy : GovernorPolicy) (collisions : List SenderCollision)
    (context : ClassificationContext) :
    Legible 96 (classify bundle policy collisions context).refusalDetail := by
  unfold classify
  simp only
  split_ifs
  · exact checkAuthority_legible
  all_goals exact legible_nil

/-- The override of the kind leaves the texts alone. -/
theorem windowClassification_texts (g : Governor) (bundle : EvidenceBundle) :
    (g.windowClassification bundle).refusalDetail = (g.classified bundle).refusalDetail ∧
      (g.windowClassification bundle).notes = (g.classified bundle).notes := by
  rw [windowClassification_eq]
  split_ifs <;> exact ⟨rfl, rfl⟩

theorem synthesis_legible (g : Governor) (bundle : EvidenceBundle) :
    (g.synthesis bundle).IsLegible := by
  refine synthesizeWindow_legible checkAuthority_legible ?_
  rw [(windowClassification_texts g bundle).1]
  exact classify_detail_legible _ _ _

theorem contributions_legible {c : SenderContribution}
    (h : c ∈ (g.classifiedDecision bundle).contributions) : Legible 51 c.disposition := by
  have hmem : c ∈ (g.windowClassification bundle).contributions := List.mem_of_mem_take h
  rw [(windowClassification_fields g bundle).2.2.2.1] at hmem
  exact classify_disposition_legible hmem

theorem addNotes_legible {decision : Decision} {maxNotes m n : ℕ} {notes : List Text}
    (hd : LegibleNotes m decision.explanation.notes) (hn : LegibleNotes n notes) :
    LegibleNotes (m + n) (decision.addNotes maxNotes notes).explanation.notes :=
  hd.append (hn.take _)

theorem effectDecision_legible (effect : Effect) : (g.effectDecision bundle effect).Drafted := by
  have hnotes : LegibleNotes 5 (g.synthesizedDecision bundle).explanation.notes :=
    (addNotes_legible (m := 0) legibleNotes_nil (synthesis_legible g bundle).notes).mono (by decide)
  have hcontributions : ∀ c ∈ (g.synthesizedDecision bundle).contributions,
      Legible 51 c.disposition := fun c hc => contributions_legible hc
  cases effect with
  | hold record =>
    refine ⟨legible_nil, ?_, fun c hc => contributions_legible hc⟩
    refine ((legibleNotes_nil (n := 0)).append (legibleNotes_singleton ?_)).mono (by decide)
    exact legible_word rfl
  | issue record => exact ⟨legible_nil, hnotes, hcontributions⟩
  | carryOn record => exact ⟨legible_nil, hnotes, hcontributions⟩
  | recover record => exact ⟨legible_nil, hnotes, hcontributions⟩
  | relax record => exact ⟨legible_nil, hnotes, hcontributions⟩
  | retireUnfounded record =>
    exact ⟨(synthesis_legible g bundle).detail, hnotes, hcontributions⟩
  | noAction live => exact ⟨(synthesis_legible g bundle).detail, hnotes, hcontributions⟩

theorem refuse_legible {decision : Decision} {reason : RefusalReason} {detail : Text}
    (hd : Legible 96 detail) (hn : decision.explanation.notes = [])
    (hc : decision.contributions = []) : (g.refuse decision reason detail).1.explanation.IsLegible :=
  buildExplanation_legible hd (hn ▸ legibleNotes_nil) (hc ▸ fun _ h => absurd h List.not_mem_nil)

theorem fence_legible {view : LiveView} {reason : RefusalReason} {detail : Text}
    (hd : Legible 96 detail) : (g.fence bundle view reason detail).1.explanation.IsLegible :=
  buildExplanation_legible hd legibleNotes_nil fun _ h => contributions_legible h

theorem commit_legible (effect : Effect) : (g.commit bundle effect).1.explanation.IsLegible := by
  have hdraft : (g.effectDecision bundle effect).Drafted := effectDecision_legible effect
  refine buildExplanation_legible hdraft.detail ?_ hdraft.dispositions
  have hnotes := classify_notes_legible bundle g.config.policy (detectCollisions bundle)
    g.classificationContext
  exact hdraft.notes.append (LegibleNotes.take ((windowClassification_texts g bundle).2 ▸ hnotes) _)

/-- Whatever the governor, its configuration and the bundle. -/
theorem evaluate_legible (g : Governor) (bundle : EvidenceBundle) :
    (g.evaluate bundle).1.explanation.IsLegible := by
  unfold evaluate
  cases hb : g.bindingRefusal bundle with
  | some denial => exact refuse_legible (bindingRefusal_legible hb) rfl rfl
  | none =>
    simp only
    by_cases hr : (g.authorityCheck bundle).reason ≠ .none
    · rw [if_pos hr]
      exact refuse_legible checkAuthority_legible rfl rfl
    rw [if_neg hr]
    cases hv : g.liveView with
    | none => exact commit_legible _
    | some view =>
      cases hf : g.liveFence bundle with
      | none => exact commit_legible _
      | some denial =>
        refine fence_legible ?_
        rw [liveFence, hv] at hf
        exact isFenced_legible hf

end Governor

end IncastGovernor
