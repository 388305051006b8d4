import Mathlib.Algebra.Group.Action.Defs
import Mathlib.Algebra.Order.BigOperators.Group.List
import IncastGovernor.Detect.Ranking
import IncastGovernor.Foundation.JsonSize
import IncastGovernor.Governor.Legible

/-! The budget of an explanation against its renderings. The JSON text of a decision is measured to
the byte by its digits and the lengths of its texts; the estimate allows a contributor less than its
keys alone take. -/

namespace IncastGovernor

open Foundation

/-! ### Fields -/

/-- The bytes of a value whose text has no escapes. -/
def FieldValue.width : FieldValue → ℕ
  | .number value => Json.decimalWidth value.toNat
  | .signed value => Json.integerWidth value.toInt
  | .string value => value.length + 2
  | .boolean value => if value then 4 else 5

def FieldValue.IsLegible : FieldValue → Prop
  | .string value => Legible 768 value
  | _ => True

/-- Legible fields, and the bytes of their names. -/
structure Measured (fields : List (Text × FieldValue)) (names : ℕ) : Prop where
  names_legible : ∀ field ∈ fields, Legible 768 field.1
  values_legible : ∀ field ∈ fields, field.2.IsLegible
  total : (fields.map fun field => field.1.length).sum = names

def valueBytes (fields : List (Text × FieldValue)) : ℕ := (fields.map fun field => field.2.width).sum

theorem length_formatU64 (value : UInt64) : (formatU64 value).length = Json.decimalWidth value.toNat :=
  Json.length_writeNat value.toNat

theorem renderedPart_of_legible {text : Text} (h : Legible 768 text) : renderedPart text = text :=
  List.take_of_length_le h.1

theorem length_writeString_renderedPart {text : Text} (h : Legible 768 text) :
    (Json.writeString (renderedPart text)).length = text.length + 2 := by
  rw [renderedPart_of_legible h]
  exact Json.length_writeString h.2

theorem FieldValue.length_write {value : FieldValue} (h : value.IsLegible) :
    value.toJson.write.length = value.width := by
  cases value with
  | number value => exact (Json.length_write_integer _).trans (Json.integerWidth_natCast _)
  | signed value => exact Json.length_write_integer value.toInt
  | string value => exact length_writeString_renderedPart h
  | boolean value => cases value <;> rfl

namespace Measured

variable {fields rest : List (Text × FieldValue)} {value : FieldValue} {names : ℕ}

theorem nil : Measured [] 0 :=
  ⟨fun _ h => absurd h List.not_mem_nil, fun _ h => absurd h List.not_mem_nil, rfl⟩

theorem cons {characters : List Char} (h : plainWord 768 characters = true)
    (hr : Measured rest names) (hv : value.IsLegible) :
    Measured ((ascii (String.ofList characters), value) :: rest) (characters.length + names) where
  names_legible field hf := by
    rcases List.mem_cons.mp hf with rfl | hf
    · exact legible_word h
    · exact hr.names_legible field hf
  values_legible field hf := by
    rcases List.mem_cons.mp hf with rfl | hf
    · exact hv
    · exact hr.values_legible field hf
  total := by
    rw [List.map_cons, List.sum_cons, hr.total, length_word]

theorem cast {m : ℕ} (h : Measured fields names) (hm : names = m) : Measured fields m := hm ▸ h

/-- Each member has two quotes and a colon beside its name and its value. -/
theorem members_sum (h : Measured fields names) :
    ((fields.map fieldMember).map fun m =>
        (Json.writeString m.1).length + m.2.write.length + 1).sum =
      names + valueBytes fields + 3 * fields.length := by
  induction fields generalizing names with
  | nil => rw [← h.total]; rfl
  | cons field rest ih =>
    have hrest : Measured rest (rest.map fun field => field.1.length).sum :=
      ⟨fun f hf => h.names_legible f (.tail _ hf), fun f hf => h.values_legible f (.tail _ hf), rfl⟩
    have hname := length_writeString_renderedPart (h.names_legible field List.mem_cons_self)
    have hvalue := FieldValue.length_write (h.values_legible field List.mem_cons_self)
    have htotal := h.total
    rw [List.map_cons, List.sum_cons] at htotal
    rw [List.map_cons, List.map_cons, List.sum_cons, ih hrest, fieldMember, hname, hvalue, valueBytes,
      valueBytes, List.map_cons, List.sum_cons, List.length_cons]
    omega

theorem length_write (h : Measured fields names) (hne : fields ≠ []) :
    (Json.write (.object (fields.map fieldMember))).length =
      names + valueBytes fields + 4 * fields.length + 1 := by
  have hpos := List.length_pos_iff.mpr hne
  rw [Json.length_write_object, h.members_sum, List.length_map]
  omega

end Measured

/-! ### The JSON text -/

theorem contributor_measured {c : SenderContribution} (h : Legible 51 c.disposition) :
    Measured c.fields 138 := by
  unfold SenderContribution.fields
  apply Measured.cast
  · iterate 13 apply Measured.cons (by rfl)
    all_goals first
      | exact trivial
      | exact Measured.nil
      | exact (ServiceClass.legible_toText _).mono (by decide)
      | exact h.mono (by decide)
  · rfl

/-- The keys of a contributor and the punctuation around them take 191 bytes. -/
def SenderContribution.jsonBytes (c : SenderContribution) : ℕ := 191 + valueBytes c.fields

/-- Texts in their quotes with a comma between them. -/
def textsBytes (texts : List Text) : ℕ :=
  (texts.map fun text => text.length + 2).sum + (texts.length - 1)

theorem length_write_textItems {texts : List Text} (h : ∀ text ∈ texts, Legible 768 text) :
    (Explanation.textItems texts).write.length = textsBytes texts + 2 := by
  have hsizes : (texts.map fun text => (Json.write (.string (renderedPart text))).length) =
      texts.map fun text => text.length + 2 :=
    List.map_congr_left fun text ht => length_writeString_renderedPart (h text ht)
  rw [Explanation.textItems, Json.length_write_array, List.map_map, List.length_map]
  exact congrArg (fun sizes : List ℕ => sizes.sum + (texts.length - 1) + 2) hsizes

theorem length_write_contributors {contributors : List SenderContribution}
    (h : ∀ c ∈ contributors, Legible 51 c.disposition) :
    (Json.write (.array (contributors.map fun c => .object (c.fields.map fieldMember)))).length =
      (contributors.map SenderContribution.jsonBytes).sum + (contributors.length - 1) + 2 := by
  have hsizes : (contributors.map fun c =>
      (Json.write (.object (c.fields.map fieldMember))).length) =
        contributors.map SenderContribution.jsonBytes := by
    refine List.map_congr_left fun c hc => ?_
    rw [(contributor_measured (h c hc)).length_write (List.cons_ne_nil _ _),
      SenderContribution.jsonBytes]
    show 138 + valueBytes c.fields + 4 * 13 + 1 = 191 + valueBytes c.fields
    omega
  rw [Json.length_write_array, List.map_map, List.length_map]
  exact congrArg (fun sizes : List ℕ => sizes.sum + (contributors.length - 1) + 2) hsizes

/-! ### The authority vector -/

theorem Legible.flatMap {α : Type} {n : ℕ} {items : List α} {f : α → Text}
    (h : ∀ x ∈ items, Legible n (f x)) : Legible (items.length * n) (items.flatMap f) := by
  induction items with
  | nil => exact legible_nil
  | cons x items ih =>
    rw [List.flatMap_cons, List.length_cons, Nat.succ_mul, Nat.add_comm]
    exact (h x List.mem_cons_self).append (ih fun y hy => h y (.tail _ hy))

theorem AuthorityVector.summary_legible (authority : AuthorityVector) :
    Legible 383 authority.summary := by
  have hmark : ∀ (bound : Bool) {characters : List Char}, plainWord 1 characters = true →
      Legible 1 (if bound then ascii (String.ofList characters) else ascii "-") := by
    intro bound characters hc
    cases bound
    · exact legible_word (by rfl)
    · exact legible_word hc
  have hflag : ∀ (p : Prop) [Decidable p] {n : ℕ} {characters : List Char},
      plainWord n characters = true →
        Legible n (if p then ascii (String.ofList characters) else []) := by
    intro p _ n characters hc
    split_ifs
    · exact legible_word hc
    · exact legible_nil
  have hclass : ∀ item ∈ EvidenceClass.all.zipIdx,
      Legible 28 ((if item.2 ≠ 0 then ascii "," else []) ++ item.1.toText ++ ascii "=" ++
        (authority.classes.get item.1).toText) := fun item _ =>
    Legible.append (hflag _ (n := 1) (by rfl)) item.1.legible_toText |>.word (n := 1) (by rfl)
      |>.append (EvidenceState.legible_toText _)
  unfold AuthorityVector.summary
  simp only
  exact (Legible.append (m := 11) (legible_word (by rfl)) (legible_boolText _)
    |>.word (n := 9) (by rfl) |>.append authority.refusal.legible_toText
    |>.word (n := 9) (by rfl) |>.append (Legible.flatMap hclass)
    |>.word (n := 10) (by rfl) |>.append (hmark _ (by rfl)) |>.append (hmark _ (by rfl))
    |>.append (hmark _ (by rfl)) |>.append (hmark _ (by rfl)) |>.append (hmark _ (by rfl))
    |>.append (hmark _ (by rfl)) |>.append (hmark _ (by rfl)) |>.append (hmark _ (by rfl))
    |>.append (hflag _ (n := 21) (by rfl)) |>.append (hflag _ (n := 24) (by rfl))
    |>.append (hflag _ (n := 25) (by rfl)) |>.append (hflag _ (n := 13) (by rfl))).mono
      (by decide)

namespace Explanation

variable {e : Explanation}

theorem fields_measured (h : e.IsLegible) : Measured e.fields 1080 := by
  unfold fields
  apply Measured.cast
  · iterate 68 apply Measured.cons (by rfl)
    all_goals first
      | exact trivial
      | exact Measured.nil
      | exact (RefusalReason.legible_toText _).mono (by decide)
      | exact (IncidentKind.legible_toText _).mono (by decide)
      | exact (Severity.legible_toText _).mono (by decide)
      | exact (MitigationKind.legible_toText _).mono (by decide)
      | exact (MitigationScope.legible_toText _).mono (by decide)
      | exact h.detail.mono (by decide)
      | exact h.headline.mono (by decide)
  · rfl

theorem classFields_measured (e : Explanation) : Measured e.classFields 72 := by
  unfold classFields EvidenceClass.all
  simp only [List.map_cons, List.map_nil, EvidenceClass.toText]
  apply Measured.cast
  · iterate 8 apply Measured.cons (by rfl)
    all_goals first
      | exact Measured.nil
      | exact (EvidenceState.legible_toText _).mono (by decide)
  · rfl

/-- The bytes of the JSON text: its fixed part, the widths of the fields, and the items of its
lists. -/
def jsonBytes (e : Explanation) : ℕ :=
  1537 + valueBytes e.fields + valueBytes e.classFields + textsBytes e.protectedExceptions +
    textsBytes e.notes +
    ((e.topContributors.map SenderContribution.jsonBytes).sum + (e.topContributors.length - 1))

theorem length_renderJson (h : e.IsLegible) : e.renderJson.length = e.jsonBytes := by
  have hfields := (fields_measured h).members_sum
  have hclasses := (classFields_measured e).length_write (List.cons_ne_nil _ _)
  have hexceptions := length_write_textItems fun text ht => (h.exceptions text ht).mono (by decide)
  have hnotes := length_write_textItems fun note hn => (h.notes.2 note hn).mono (by decide)
  have hcontributors := length_write_contributors h.dispositions
  have hname : ∀ characters : List Char, plainWord 768 characters = true →
      (Json.writeString (ascii (String.ofList characters))).length = characters.length + 2 := by
    intro characters hc
    rw [Json.length_writeString (legible_word hc).2, length_word]
  have hlength : e.fields.length = 68 := rfl
  have hclassLength : e.classFields.length = 8 := rfl
  rw [renderJson_eq_write, toJson, Json.length_write_object, members, List.map_append,
    List.sum_append, hfields, List.length_append, List.length_map]
  simp only [List.map_cons, List.map_nil, List.sum_cons, List.sum_nil, List.length_cons,
    List.length_nil, hclasses, hexceptions, hnotes, hcontributors, hlength, hclassLength]
  rw [hname _ (by rfl), hname _ (by rfl), hname _ (by rfl), hname _ (by rfl), jsonBytes]
  simp only [List.length_cons, List.length_nil]
  omega

/-! ### The text -/

section Lines

variable {m n : ℕ} {value : Text} {rest : List (String × Text)}

theorem jsonEscape_of_legible {text : Text} (h : Legible 768 text) : jsonEscape text = text := by
  rw [jsonEscape, renderedPart_of_legible h]
  have hsame : ∀ b ∈ text, escapeCharacter b = [b] := fun b hb => by
    rw [escapeCharacter_eq, Json.escapeByte_plain (h.2 b hb)]
  rw [List.flatMap_congr hsame]
  exact List.flatMap_singleton' text

theorem labelled_nil : (labelled []).length ≤ 0 := le_rfl

theorem labelled_cons_le {characters : List Char} (hv : value.length ≤ m)
    (hr : (labelled rest).length ≤ n) :
    (labelled ((String.ofList characters, value) :: rest)).length ≤ characters.length + m + n := by
  have hsplit : labelled ((String.ofList characters, value) :: rest) =
      (ascii (String.ofList characters) ++ value) ++ labelled rest := List.flatMap_cons
  rw [hsplit, List.length_append, List.length_append, length_word]
  omega

theorem labelled_cons {characters : List Char} (hv : Legible m value)
    (hr : (labelled rest).length ≤ n) :
    (labelled ((String.ofList characters, value) :: rest)).length ≤ characters.length + m + n :=
  labelled_cons_le hv.1 hr

theorem length_line (text : Text) : (text ++ ascii "\n").length = text.length + 1 :=
  List.length_append

theorem identityLine_le (h : e.IsLegible) : e.identityLine.length ≤ 291 := by
  have hdetail : Legible 96 (jsonEscape e.refusalDetail) := by
    rw [jsonEscape_of_legible (h.detail.mono (by decide))]
    exact h.detail
  rw [identityLine, length_line, List.length_append]
  refine Nat.succ_le_succ (Nat.add_le_add (b := 153) (d := 137) ?_ ?_)
  · refine le_trans (labelled_cons (legible_formatU64 _) <| labelled_cons (legible_formatU64 _) <|
      labelled_cons (legible_formatU64 _) <| labelled_cons e.kind.legible_toText <|
      labelled_cons e.severity.legible_toText <| labelled_cons (legible_boolText _)
      labelled_nil) ?_
    decide
  · by_cases hr : e.refusal ≠ .none
    · rw [if_pos hr]
      refine le_trans (labelled_cons e.refusal.legible_toText <| labelled_cons hdetail
        labelled_nil) ?_
      decide
    · rw [if_neg hr]
      exact Nat.zero_le _

theorem populationLine_le (e : Explanation) : e.populationLine.length ≤ 126 := by
  rw [populationLine, length_line]
  refine Nat.succ_le_succ (le_trans (labelled_cons (legible_formatU64 _) <|
    labelled_cons (legible_formatU64 _) <| labelled_cons (legible_formatI64 _) <|
    labelled_cons (legible_boolText _) <| labelled_cons (legible_boolText _) labelled_nil) ?_)
  decide

theorem pressureLine_le (e : Explanation) : e.pressureLine.length ≤ 300 := by
  rw [pressureLine, length_line]
  refine Nat.succ_le_succ (le_trans (labelled_cons (legible_formatU64 _) <|
    labelled_cons (legible_formatU64 _) <| labelled_cons (legible_formatU64 _) <|
    labelled_cons (legible_formatU64 _) <| labelled_cons (legible_formatU64 _) <|
    labelled_cons (legible_formatU64 _) <| labelled_cons (legible_formatU64 _) <|
    labelled_cons (legible_formatU64 _) <| labelled_cons (legible_formatU64 _) labelled_nil) ?_)
  decide

theorem protectionLine_le (e : Explanation) : e.protectionLine.length ≤ 153 := by
  rw [protectionLine, length_line]
  refine Nat.succ_le_succ (le_trans (labelled_cons (legible_formatU64 _) <|
    labelled_cons (legible_formatU64 _) <| labelled_cons (legible_formatU64 _) <|
    labelled_cons (legible_formatU64 _) labelled_nil) ?_)
  decide

theorem mitigationLine_le (e : Explanation) : e.mitigationLine.length ≤ 300 := by
  rw [mitigationLine, length_line]
  refine Nat.succ_le_succ (le_trans (labelled_cons (MitigationKind.legible_toText _) <|
    labelled_cons (MitigationScope.legible_toText _) <| labelled_cons (legible_formatU64 _) <|
    labelled_cons (legible_formatU64 _) <| labelled_cons (legible_formatU64 _) <|
    labelled_cons (legible_formatU64 _) <| labelled_cons (legible_formatU64 _) <|
    labelled_cons (legible_formatI64 _) <| labelled_cons (legible_boolText _) labelled_nil) ?_)
  decide

theorem interventionLine_le (e : Explanation) : e.interventionLine.length ≤ 100 := by
  have hverb : Legible 9 (if e.intent.active then
      if e.intent.continuesPrior then ascii "continued" else ascii "issued" else ascii "none") := by
    split_ifs <;> exact legible_word rfl
  rw [interventionLine, length_line]
  refine Nat.succ_le_succ (le_trans (labelled_cons hverb <|
    labelled_cons (legible_formatU64 _) <| labelled_cons (legible_formatU64 _) labelled_nil) ?_)
  decide

theorem authorityLine_le (e : Explanation) : e.authorityLine.length ≤ 400 := by
  have h : Legible 398 (ascii "  authority: " ++ e.authority.summary) :=
    (Legible.append (m := 13) (legible_word (by rfl)) e.authority.summary_legible).mono
      (by decide)
  rw [authorityLine, length_line]
  exact Nat.succ_le_succ (h.1.trans (by decide))

end Lines

/-! ### The lists of the text -/

theorem length_listing_le {α : Type} {characters : List Char} (line : α → Text) (items : List α) :
    (listing (String.ofList characters) line items).length ≤
      characters.length + (items.map fun item => (line item).length).sum := by
  unfold listing
  split_ifs
  · exact Nat.zero_le _
  · rw [List.length_append, List.length_flatMap, length_word]

theorem length_itemLine (text : Text) : (itemLine text).length = text.length + 7 := by
  have hdash : (ascii "    - ").length = 6 := length_word _
  rw [itemLine, length_line, List.length_append, hdash]
  omega

/-- The line of a contributor is shorter than its object by more than 110 bytes. -/
theorem contributorLine_le (c : SenderContribution) :
    (contributorLine c).length + 110 ≤ c.jsonBytes := by
  have hboolean : (boolText c.synchronized).length = if c.synchronized then 4 else 5 := by
    cases c.synchronized <;> rfl
  rw [contributorLine, length_line]
  refine le_trans (Nat.add_le_add_right (Nat.succ_le_succ (labelled_cons_le le_rfl <|
    labelled_cons_le le_rfl <| labelled_cons_le le_rfl <| labelled_cons_le le_rfl <|
    labelled_cons_le le_rfl <| labelled_cons_le le_rfl <| labelled_cons_le le_rfl labelled_nil))
    110) ?_
  simp only [length_formatU64, hboolean, SenderContribution.jsonBytes, valueBytes,
    SenderContribution.fields, List.map_cons, List.map_nil, List.sum_cons, List.sum_nil,
    FieldValue.width, List.length_cons, List.length_nil]
  omega

theorem contributorLine_le_of_legible {c : SenderContribution} (h : Legible 51 c.disposition) :
    (contributorLine c).length ≤ 233 := by
  rw [contributorLine, length_line]
  refine Nat.succ_le_succ (le_trans (labelled_cons (legible_formatU64 _) <|
    labelled_cons (legible_formatU64 _) <| labelled_cons c.service.legible_toText <|
    labelled_cons (legible_formatU64 _) <| labelled_cons (legible_formatU64 _) <|
    labelled_cons (legible_boolText _) <| labelled_cons h labelled_nil) ?_)
  decide

theorem sum_length_add (texts : List Text) (k : ℕ) :
    (texts.map fun text => text.length + k).sum = (texts.map List.length).sum + texts.length * k := by
  rw [List.sum_map_add, List.map_const', List.sum_replicate, smul_eq_mul]

theorem sum_map_le {α : Type} {items : List α} {f : α → ℕ} {n : ℕ} (h : ∀ x ∈ items, f x ≤ n) :
    (items.map f).sum ≤ items.length * n := by
  have hsum := List.sum_le_card_nsmul (items.map f) n fun y hy => by
    obtain ⟨x, hx, rfl⟩ := List.mem_map.mp hy
    exact h x hx
  rwa [List.length_map, smul_eq_mul] at hsum

theorem le_sum_map {α : Type} {items : List α} {f : α → ℕ} {n : ℕ} (h : ∀ x ∈ items, n ≤ f x) :
    items.length * n ≤ (items.map f).sum := by
  have hsum := List.card_nsmul_le_sum (items.map f) n fun y hy => by
    obtain ⟨x, hx, rfl⟩ := List.mem_map.mp hy
    exact h x hx
  rwa [List.length_map, smul_eq_mul] at hsum

theorem length_renderText_le (h : e.IsLegible) :
    e.renderText.length ≤ 1723 + ((e.protectedExceptions.map List.length).sum +
      e.protectedExceptions.length * 7) +
        (e.topContributors.map fun c => (contributorLine c).length).sum +
          ((e.notes.map List.length).sum + e.notes.length * 7) := by
  have hitems : ∀ texts : List Text, (texts.map fun text => (itemLine text).length).sum =
      (texts.map List.length).sum + texts.length * 7 := fun texts => by
    rw [← sum_length_add, List.map_congr_left fun text _ => length_itemLine text]
  have hexceptions : (listing "  protected exceptions:\n" itemLine e.protectedExceptions).length ≤
      24 + _ := length_listing_le itemLine e.protectedExceptions
  have hcontributors : (listing "  top contributors:\n" contributorLine e.topContributors).length ≤
      20 + _ := length_listing_le contributorLine e.topContributors
  have hnotes : (listing "  notes:\n" itemLine e.notes).length ≤ 9 + _ :=
    length_listing_le itemLine e.notes
  have hidentity := identityLine_le h
  have hpopulation := e.populationLine_le
  have hpressure := e.pressureLine_le
  have hprotection := e.protectionLine_le
  have hmitigation := e.mitigationLine_le
  have hintervention := e.interventionLine_le
  have hauthority := e.authorityLine_le
  rw [hitems] at hexceptions hnotes
  rw [renderText]
  simp only [List.length_append]
  omega

theorem textsBytes_eq (texts : List Text) :
    textsBytes texts = (texts.map List.length).sum + texts.length * 2 + (texts.length - 1) := by
  rw [textsBytes, sum_length_add]

theorem contributorLines_le (contributors : List SenderContribution) :
    (contributors.map fun c => (contributorLine c).length).sum + contributors.length * 110 ≤
      (contributors.map SenderContribution.jsonBytes).sum := by
  have hsum := List.sum_le_sum fun c (_ : c ∈ contributors) => contributorLine_le c
  rwa [List.sum_map_add, List.map_const', List.sum_replicate, smul_eq_mul] at hsum

/-- The lists of a legible explanation. -/
theorem texts_le (h : e.IsLegible) :
    (e.protectedExceptions.map List.length).sum ≤ e.protectedExceptions.length * 111 ∧
      e.protectedExceptions.length ≤ 128 ∧
        (e.notes.map List.length).sum ≤ e.notes.length * 200 ∧ e.notes.length ≤ 10 :=
  ⟨sum_map_le fun text ht => (h.exceptions text ht).1, h.exceptions_length,
    sum_map_le fun note hn => (h.notes.2 note hn).1, h.notes.1⟩

/-- With nine contributors the text is the shorter rendering; with fewer it is far from the bound. -/
theorem renderText_fits (h : e.IsLegible) (hj : e.jsonBytes ≤ kMaxExplanationBytes) :
    e.renderText.length ≤ kMaxExplanationBytes := by
  have htext := length_renderText_le h
  obtain ⟨hexceptions, hexceptionCount, hnotes, hnoteCount⟩ := texts_le h
  unfold kMaxExplanationBytes at hj ⊢
  by_cases hk : e.topContributors.length ≤ 8
  · have hlines := sum_map_le fun c hc => contributorLine_le_of_legible (h.dispositions c hc)
    omega
  · have hlines := contributorLines_le e.topContributors
    rw [jsonBytes, textsBytes_eq, textsBytes_eq] at hj
    omega

end Explanation

/-! ### How much the contributors take -/

section Widths

variable {text : Text} {m n : ℕ} {field : Text × FieldValue} {rest : List (Text × FieldValue)}

theorem width_number_le (value : UInt64) : (FieldValue.number value).width ≤ 20 :=
  (length_formatU64 value).symm.trans_le (legible_formatU64 value).1

theorem width_signed_le (value : Int64) : (FieldValue.signed value).width ≤ 20 := by
  have h := (legible_formatI64 value).1
  rwa [formatI64_eq, Json.length_writeInt] at h

theorem width_boolean_le (value : Bool) : (FieldValue.boolean value).width ≤ 5 := by
  cases value <;> decide

theorem le_width_boolean (value : Bool) : 4 ≤ (FieldValue.boolean value).width := by
  cases value <;> decide

theorem width_string_le (h : Legible n text) : (FieldValue.string text).width ≤ n + 2 :=
  Nat.add_le_add_right h.1 2

theorem valueBytes_nil_le : valueBytes [] ≤ 0 := le_rfl

theorem valueBytes_cons_le (hr : valueBytes rest ≤ n) (hv : field.2.width ≤ m) :
    valueBytes (field :: rest) ≤ m + n := by
  rw [valueBytes, List.map_cons, List.sum_cons]
  exact Nat.add_le_add hv hr

theorem le_valueBytes_cons (hr : n ≤ valueBytes rest) (hv : m ≤ field.2.width) :
    m + n ≤ valueBytes (field :: rest) := by
  rw [valueBytes, List.map_cons, List.sum_cons]
  exact Nat.add_le_add hv hr

theorem contributorValues_le {c : SenderContribution} (h : Legible 51 c.disposition) :
    valueBytes c.fields ≤ 251 := by
  unfold SenderContribution.fields
  apply le_trans
  · iterate 13 apply valueBytes_cons_le
    all_goals first
      | exact valueBytes_nil_le
      | exact width_number_le _
      | exact width_signed_le _
      | exact width_boolean_le _
      | exact width_string_le c.service.legible_toText
      | exact width_string_le h
  · decide

/-- Seven digits, four words of four letters and two pairs of quotes. -/
theorem le_contributorValues (c : SenderContribution) : 27 ≤ valueBytes c.fields := by
  have hoffset : 1 ≤ (FieldValue.signed c.arrivalOffset.nanos).width :=
    (Json.decimalWidth_pos _).trans (Nat.le_add_left _ _)
  unfold SenderContribution.fields
  apply le_trans (b := 1 + (1 + (1 + (2 + (4 + (4 + (4 + (4 + (1 + (1 + (1 + (1 + (2 + 0)))))))))))))
  · decide
  · iterate 13 apply le_valueBytes_cons
    all_goals first
      | exact Nat.zero_le _
      | exact Json.decimalWidth_pos _
      | exact hoffset
      | exact le_width_boolean _
      | exact Nat.le_add_left 2 _

end Widths

namespace Explanation

variable {e : Explanation}

theorem fieldValues_le (h : e.IsLegible) : valueBytes e.fields ≤ 2526 := by
  unfold fields
  apply le_trans
  · iterate 68 apply valueBytes_cons_le
    all_goals first
      | exact valueBytes_nil_le
      | exact width_number_le _
      | exact width_signed_le _
      | exact width_boolean_le _
      | exact width_string_le (RefusalReason.legible_toText _)
      | exact width_string_le (IncidentKind.legible_toText _)
      | exact width_string_le (Severity.legible_toText _)
      | exact width_string_le (MitigationKind.legible_toText _)
      | exact width_string_le (MitigationScope.legible_toText _)
      | exact width_string_le h.detail
      | exact width_string_le h.headline
  · decide

theorem classValues_le (e : Explanation) : valueBytes e.classFields ≤ 120 := by
  rw [valueBytes, classFields, List.map_map]
  exact sum_map_le fun klass _ => width_string_le (EvidenceState.legible_toText _)

/-- A hundred contributors fit, whatever they hold. -/
theorem jsonBytes_le (h : e.IsLegible) (hk : e.topContributors.length ≤ 100) :
    e.jsonBytes ≤ kMaxExplanationBytes := by
  have hfields := fieldValues_le h
  have hclasses := e.classValues_le
  obtain ⟨hexceptions, hexceptionCount, hnotes, hnoteCount⟩ := texts_le h
  have hcontributors : (e.topContributors.map SenderContribution.jsonBytes).sum ≤
      e.topContributors.length * 442 :=
    sum_map_le fun c hc => Nat.add_le_add_left (contributorValues_le (h.dispositions c hc)) 191
  rw [jsonBytes, textsBytes_eq, textsBytes_eq, kMaxExplanationBytes]
  omega

/-- Three hundred do not, not even with a digit in every number. -/
theorem jsonBytes_overrun (hk : 300 ≤ e.topContributors.length) :
    kMaxExplanationBytes < e.jsonBytes := by
  have hcontributors : e.topContributors.length * 218 ≤
      (e.topContributors.map SenderContribution.jsonBytes).sum :=
    le_sum_map fun c _ => Nat.add_le_add_left (le_contributorValues c) 191
  rw [jsonBytes, kMaxExplanationBytes]
  omega

/-- The estimate takes three hundred. -/
theorem withinBudget_of_legible (h : e.IsLegible) (hk : e.topContributors.length ≤ 300) :
    e.withinBudget := by
  obtain ⟨hexceptions, hexceptionCount, hnotes, hnoteCount⟩ := texts_le h
  have hcontributors : (e.topContributors.map fun c => c.disposition.length + 96).sum ≤
      e.topContributors.length * 147 :=
    sum_map_le fun c hc => Nat.add_le_add_right (h.dispositions c hc).1 96
  have hheadline := h.headline.1
  have hdetail := h.detail.1
  refine ⟨?_, h.notes.1.trans (by decide), hk.trans (by decide)⟩
  rw [approximateBytes, kMaxExplanationBytes]
  omega

end Explanation

/-! ### The budget of a decision -/

namespace Governor

variable {g : Governor} {bundle : EvidenceBundle}

theorem effectDecision_contributions (effect : Effect) :
    (g.effectDecision bundle effect).contributions =
      (g.windowClassification bundle).contributions.take g.config.maxContributionsInDecision := by
  cases effect <;> rfl

theorem commit_topContributors (effect : Effect) :
    (g.commit bundle effect).1.explanation.topContributors =
      ((g.windowClassification bundle).contributions.take g.config.maxContributionsInDecision).take
        g.config.maxContributionsInDecision := by
  rw [← effectDecision_contributions effect]
  rfl

/-- A decision lists no more contributors than its configuration allows. -/
theorem topContributors_length_le (g : Governor) (bundle : EvidenceBundle) :
    (g.evaluate bundle).1.explanation.topContributors.length ≤ g.config.maxContributionsInDecision := by
  rcases evaluate_cases g bundle with ⟨-, decision, reason, detail, he⟩ | ⟨-, view, denial, -, -, he⟩ |
    ⟨-, -, he⟩
  all_goals
    rw [he]
    exact List.length_take_le _ _

/-- The budget is sound under the default configuration, and up to a hundred contributors. -/
theorem budget_sound_of_few (g : Governor) (bundle : EvidenceBundle)
    (h : g.config.maxContributionsInDecision ≤ 100) :
    (g.evaluate bundle).1.explanation.renderText.length ≤ kMaxExplanationBytes ∧
      (g.evaluate bundle).1.explanation.renderJson.length ≤ kMaxExplanationBytes := by
  have hlegible := evaluate_legible g bundle
  have hbytes := Explanation.jsonBytes_le hlegible ((topContributors_length_le g bundle).trans h)
  refine ⟨Explanation.renderText_fits hlegible hbytes, ?_⟩
  rwa [Explanation.length_renderJson hlegible]

/-- The budget of a decision is sound exactly when its fields, digit by digit, leave room for the
fixed part of the JSON text and for the keys of every contributor. They always do where no more than
a hundred contributors are listed, and never where there are three hundred. -/
theorem budget_sound_iff (g : Governor) (bundle : EvidenceBundle) :
    let e := (g.evaluate bundle).1.explanation
    ((e.withinBudget → e.renderText.length ≤ kMaxExplanationBytes ∧
        e.renderJson.length ≤ kMaxExplanationBytes) ↔
      (e.withinBudget → e.jsonBytes ≤ kMaxExplanationBytes)) ∧
    (g.config.maxContributionsInDecision ≤ 100 →
      e.renderText.length ≤ kMaxExplanationBytes ∧ e.renderJson.length ≤ kMaxExplanationBytes) ∧
    (300 ≤ e.topContributors.length → kMaxExplanationBytes < e.renderJson.length) := by
  intro e
  have h : e.IsLegible := evaluate_legible g bundle
  refine ⟨?_, budget_sound_of_few g bundle, fun hmany => ?_⟩
  · rw [Explanation.length_renderJson h]
    constructor
    · exact fun hsound hw => (hsound hw).2
    · exact fun hfits hw => ⟨Explanation.renderText_fits h (hfits hw), hfits hw⟩
  · rw [Explanation.length_renderJson h]
    exact Explanation.jsonBytes_overrun hmany

/-! ### Three hundred senders -/

/-- Senders of one boot without flows, told apart by their number. -/
def swarmRow (n : ℕ) : SenderObservation :=
  { sampleRow 1 1500 with identity := { sender := ⟨UInt64.ofNat (n + 1)⟩, incarnation := ⟨1⟩ } }

def swarmWindow : EvidenceBundle := sampleBundle 1 1000000000 ((List.range 300).map swarmRow)

def swarmConfig : GovernorConfig := { sampleConfig with maxContributionsInDecision := 300 }

theorem swarm_keys_nodup :
    (((List.range 300).map swarmRow).map fun row => identityKey row.identity).Nodup := by
  rw [List.map_map]
  refine List.Nodup.map_on (fun m hm n hn h => ?_) List.nodup_range
  have hid : UInt64.ofNat (m + 1) = UInt64.ofNat (n + 1) :=
    (UInt64.xor_left_inj _).mp ((UInt64.xor_left_inj _).mp h)
  have hvalue := congrArg UInt64.toNat hid
  rw [List.mem_range] at hm hn
  rw [UInt64.toNat_ofNat', UInt64.toNat_ofNat'] at hvalue
  omega

theorem swarm_contributors :
    ((create swarmConfig).evaluate swarmWindow).1.explanation.topContributors.length = 300 := by
  have haccepts : (create swarmConfig).accepts swarmWindow := by decide +kernel
  have hrows : countedRows swarmWindow = (List.range 300).map swarmRow := by
    rw [countedRows_of_structurallyValid (bindingGranted_of_accepts haccepts).structural]
    exact List.filter_eq_self.mpr (by decide +kernel)
  have hgranted := (authorityGranted_of_accepts haccepts).withoutSequences
  have hranked : ((create swarmConfig).windowClassification swarmWindow).contributions.length = 300 := by
    rw [(windowClassification_fields _ _).2.2.2.1, classified, classify_contributions hgranted,
      rankContributions_perm.length_eq, List.length_map, firstByKey_eq_firstBy, hrows,
      firstBy_of_nodup swarm_keys_nodup fun _ _ => List.not_mem_nil, List.length_map,
      List.length_range]
  rw [evaluate_committed haccepts (liveFence_none_of_view rfl), commit_topContributors,
    List.length_take, List.length_take, hranked]
  rfl

/-- The estimate takes the explanation of three hundred senders; its JSON text is too long. -/
theorem estimate_admits_overrun :
    ¬∀ (config : GovernorConfig) (bundle : EvidenceBundle), config.policy.validate = .ok () →
      let e := ((create config).evaluate bundle).1.explanation
      e.withinBudget → e.renderText.length ≤ kMaxExplanationBytes ∧
        e.renderJson.length ≤ kMaxExplanationBytes := by
  intro h
  have hpolicy : swarmConfig.policy.validate = .ok () := by decide +kernel
  have hlegible := evaluate_legible (create swarmConfig) swarmWindow
  have hbudget := Explanation.withinBudget_of_legible hlegible swarm_contributors.le
  have hfits := (h swarmConfig swarmWindow hpolicy hbudget).2
  rw [Explanation.length_renderJson hlegible] at hfits
  exact absurd hfits (Nat.not_le_of_gt (Explanation.jsonBytes_overrun swarm_contributors.ge))

end Governor

end IncastGovernor
