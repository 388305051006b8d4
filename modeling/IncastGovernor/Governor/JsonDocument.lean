import IncastGovernor.Foundation.JsonText
import IncastGovernor.Governor.Rendering

/-! The JSON rendering of an explanation as a document: the value it stands for, and the rendered
bytes as the compact text of that value. -/

namespace IncastGovernor

open Foundation

/-! ### Values -/

def FieldValue.toJson : FieldValue → Json
  | .number value => .number value.toNat 0
  | .signed value => .number value.toInt 0
  | .string value => .string (renderedPart value)
  | .boolean value => .bool value

theorem escapeCharacter_eq (character : UInt8) :
    escapeCharacter character = Json.escapeByte character := by
  have hall : ∀ n < 256, escapeCharacter (UInt8.ofNat n) = Json.escapeByte (UInt8.ofNat n) := by
    decide +kernel
  have h := hall character.toNat character.toNat_lt
  rwa [UInt8.ofNat_toNat] at h

theorem quoted_eq (text : Text) : quoted text = Json.writeString (renderedPart text) := by
  have hescape : jsonEscape text = (renderedPart text).flatMap Json.escapeByte := by
    rw [jsonEscape, funext escapeCharacter_eq]
  rw [quoted, hescape]
  rfl

/-- The word of a signed value wraps the negative ones. -/
theorem toUInt64_toNat (value : Int64) :
    (value.toUInt64.toNat : ℤ) = if value.toInt < 0 then value.toInt + 2 ^ 64 else value.toInt := by
  have h : value.toInt = (value.toUInt64.toNat : ℤ).bmod (2 ^ 64) :=
    BitVec.toInt_eq_toNat_bmod value.toBitVec
  have hlt := value.toUInt64.toNat_lt
  rw [Int.bmod_def] at h
  omega

theorem formatI64_eq (value : Int64) : formatI64 value = Json.writeInt value.toInt := by
  have hword := toUInt64_toNat value
  have hlow := value.le_toInt
  unfold formatI64 Json.writeInt
  by_cases hneg : value.toInt < 0
  · have hmagnitude : (0 - value.toUInt64).toNat = value.toInt.natAbs := by
      rw [UInt64.toNat_sub, UInt64.toNat_zero]
      rw [if_pos hneg] at hword
      omega
    rw [if_pos (Int64.lt_iff_toInt_lt.mpr hneg), if_pos hneg, formatU64, hmagnitude]
    rfl
  · have hmagnitude : value.toUInt64.toNat = value.toInt.natAbs := by
      rw [if_neg hneg] at hword
      omega
    rw [if_neg fun hlt => hneg (Int64.lt_iff_toInt_lt.mp hlt), if_neg hneg, formatU64, hmagnitude]
    rfl

theorem writeNumber_zero (n : ℤ) : Json.write (.number n 0) = Json.writeInt n := by
  rw [Json.write, Json.writeNumber, if_pos rfl, List.append_nil]

theorem FieldValue.toText_eq (value : FieldValue) : value.toText = value.toJson.write := by
  cases value with
  | number value => rw [FieldValue.toJson, writeNumber_zero]; rfl
  | signed value => rw [FieldValue.toJson, writeNumber_zero]; exact formatI64_eq value
  | string value => exact quoted_eq value
  | boolean value => cases value <;> rfl

/-! ### The members of a document -/

def fieldMember (field : Text × FieldValue) : Text × Json := (renderedPart field.1, field.2.toJson)

/-- The text of a member: its quoted key, a colon and the text of its value. -/
def memberText (key value : Text) : Text := quoted key ++ ascii ":" ++ value

namespace JsonBuffer

/-- A buffer holds some member texts behind a base. -/
structure Holds (buffer : JsonBuffer) (base : Text) (texts : List Text) : Prop where
  text : buffer.text = base ++ Json.joined texts
  first : buffer.first = texts.isEmpty

variable {buffer : JsonBuffer} {base : Text} {texts : List Text}

theorem holds_start (base : Text) : (JsonBuffer.mk base true).Holds base [] :=
  ⟨(List.append_nil base).symm, rfl⟩

/-- A member behind the separating comma is one more member. -/
theorem Holds.next (h : buffer.Holds base texts) (text : Text) :
    (JsonBuffer.mk (buffer.separate.text ++ text) false).Holds base (texts ++ [text]) := by
  refine ⟨?_, ?_⟩
  · rw [Json.joined_append_singleton]
    simp only [separate, h.first, h.text, List.isEmpty_iff]
    split_ifs with hnil
    · rw [hnil]
      simp only [Json.joined, List.append_nil]
    · simp only [List.append_assoc]
      rfl
  · cases texts <;> rfl

theorem Holds.appendField (h : buffer.Holds base texts) (key value : Text) :
    (buffer.appendField key value).Holds base (texts ++ [memberText key value]) := by
  have hnext := h.next (memberText key value)
  simp only [memberText, ← List.append_assoc] at hnext ⊢
  exact hnext

theorem Holds.appendFields (h : buffer.Holds base texts) (fields : List (Text × FieldValue)) :
    (buffer.appendFields fields).Holds base
      (texts ++ fields.map fun field => memberText field.1 field.2.toText) := by
  induction fields generalizing buffer texts with
  | nil => rwa [List.map_nil, List.append_nil]
  | cons field fields ih =>
    have hnext := ih (h.appendField field.1 field.2.toText)
    rwa [List.append_assoc] at hnext

theorem appendObject_text (buffer : JsonBuffer) (fields : List (Text × FieldValue)) :
    (buffer.appendObject fields).text =
      buffer.text ++ Json.write (.object (fields.map fieldMember)) := by
  have hmembers : (fields.map fun field => memberText field.1 field.2.toText) =
      Json.writeMembers (fields.map fieldMember) := by
    rw [Json.writeMembers_eq_map, List.map_map]
    refine List.map_congr_left fun field _ => ?_
    rw [memberText, quoted_eq, FieldValue.toText_eq, List.append_assoc]
    rfl
  have hheld := (holds_start (buffer.text ++ ascii "\x7b")).appendFields fields
  rw [appendObject]
  simp only
  rw [hheld.text, List.nil_append, hmembers, Json.write, List.append_assoc, List.append_assoc]
  rfl

theorem appendObject_first (buffer : JsonBuffer) (fields : List (Text × FieldValue)) :
    (buffer.appendObject fields).first = buffer.first := rfl

/-- A function that appends the text of an item. -/
structure Appends {α : Type} (item : JsonBuffer → α → JsonBuffer) (toJson : α → Json) : Prop where
  text : ∀ buffer x, (item buffer x).text = buffer.text ++ (toJson x).write
  first : ∀ buffer x, (item buffer x).first = buffer.first

variable {α : Type} {item : JsonBuffer → α → JsonBuffer} {toJson : α → Json}

/-- Past index 0 every item has a comma before it. -/
theorem appendItems_later (h : Appends item toJson) (items : List α) (n : ℕ) (buffer : JsonBuffer) :
    ((items.zipIdx (n + 1)).foldl
        (fun buffer x => item (if x.2 ≠ 0 then buffer.append (ascii ",") else buffer) x.1)
        buffer).text =
      buffer.text ++ (items.map fun x => (toJson x).write).flatMap fun text => Json.byte ',' :: text := by
  induction items generalizing n buffer with
  | nil => exact (List.append_nil _).symm
  | cons x items ih =>
    rw [List.zipIdx_cons, List.foldl_cons, ih, if_pos (Nat.succ_ne_zero n), h.text, List.map_cons,
      List.flatMap_cons]
    simp only [append, List.append_assoc]
    rfl

theorem appendItems_text (h : Appends item toJson) (items : List α) (buffer : JsonBuffer) :
    (appendItems item buffer items).text =
      buffer.text ++ Json.joined (Json.writeItems (items.map toJson)) := by
  rw [Json.writeItems_eq_map, List.map_map]
  cases items with
  | nil => exact (List.append_nil _).symm
  | cons x items =>
    rw [appendItems, List.zipIdx_cons, List.foldl_cons, appendItems_later h, h.text, List.map_cons,
      Json.joined_cons, List.append_assoc]
    rfl

/-- An object behind its key is one more member. -/
theorem Holds.appendObject (h : buffer.Holds base texts) (key : Text) {label : Text}
    (hlabel : label = quoted key ++ ascii ":") (fields : List (Text × FieldValue)) :
    ((buffer.separate.append label).appendObject fields).Holds base
      (texts ++ [memberText key (Json.write (.object (fields.map fieldMember)))]) := by
  have hnext := h.next (memberText key (Json.write (.object (fields.map fieldMember))))
  refine ⟨?_, (appendObject_first _ fields).trans hnext.first⟩
  rw [← hnext.text, appendObject_text, memberText, hlabel]
  simp only [append, List.append_assoc]

theorem appendItems_first (h : Appends item toJson) (items : List α) (buffer : JsonBuffer) :
    (appendItems item buffer items).first = buffer.first := by
  unfold appendItems
  generalize items.zipIdx = indexed
  induction indexed generalizing buffer with
  | nil => rfl
  | cons x indexed ih =>
    rw [List.foldl_cons, ih, h.first]
    split_ifs <;> rfl

/-- An array behind its key is one more member. -/
theorem Holds.appendArray (h : buffer.Holds base texts) (hi : Appends item toJson) (key : String)
    (hkey : quoted (ascii key) = ascii "\"" ++ ascii key ++ ascii "\"") (items : List α) :
    (buffer.appendArray item key items).Holds base
      (texts ++ [memberText (ascii key) (Json.write (.array (items.map toJson)))]) := by
  have hnext := h.next (memberText (ascii key) (Json.write (.array (items.map toJson))))
  refine ⟨?_, (appendItems_first hi items _).trans hnext.first⟩
  rw [← hnext.text]
  simp only [JsonBuffer.appendArray, append, appendItems_text hi, memberText, hkey, Json.write,
    List.append_assoc]
  rfl

theorem appends_quoted : Appends appendQuoted fun text => .string (renderedPart text) where
  text buffer text := by
    rw [appendQuoted, append, quoted_eq]
    rfl
  first _ _ := rfl

theorem appends_contributor :
    Appends appendContributor fun c => .object (c.fields.map fieldMember) where
  text buffer c := by
    rw [appendContributor]
    exact appendObject_text buffer _
  first buffer c := by
    rw [appendContributor]
    exact appendObject_first buffer _

end JsonBuffer

/-! ### The document -/

namespace Explanation

def textItems (texts : List Text) : Json := .array (texts.map fun text => .string (renderedPart text))

/-- The members of an explanation's document. -/
def members (e : Explanation) : List (Text × Json) :=
  e.fields.map fieldMember ++
    [(ascii "evidence_classes", .object (e.classFields.map fieldMember)),
      (ascii "protected_exceptions", textItems e.protectedExceptions),
      (ascii "notes", textItems e.notes),
      (ascii "top_contributors",
        .array (e.topContributors.map fun c => .object (c.fields.map fieldMember)))]

/-- The value an explanation is rendered as. -/
def toJson (e : Explanation) : Json := .object e.members

/-- A key within the bound is written as it is. -/
theorem quoted_eq_writeString {key : Text} (h : renderedPart key = key) :
    quoted key = Json.writeString key := by rw [quoted_eq, h]

theorem memberText_eq {key : Text} (h : renderedPart key = key) (value : Json) :
    memberText key value.write = Json.writeString key ++ Json.byte ':' :: value.write := by
  rw [memberText, quoted_eq_writeString h, List.append_assoc]
  rfl

theorem fieldText_eq (field : Text × FieldValue) :
    memberText field.1 field.2.toText =
      Json.writeString (fieldMember field).1 ++ Json.byte ':' :: (fieldMember field).2.write := by
  rw [memberText, quoted_eq, FieldValue.toText_eq, List.append_assoc]
  rfl

/-- The rendering is the compact text of the document. -/
theorem renderJson_eq_write (e : Explanation) : e.renderJson = e.toJson.write := by
  have hfields := (JsonBuffer.holds_start (ascii "\x7b")).appendFields e.fields
  have hclasses := hfields.appendObject (ascii "evidence_classes") rfl e.classFields
  have hexceptions := hclasses.appendArray JsonBuffer.appends_quoted "protected_exceptions"
    (by decide) e.protectedExceptions
  have hnotes := hexceptions.appendArray JsonBuffer.appends_quoted "notes" (by decide) e.notes
  have hheld := hnotes.appendArray JsonBuffer.appends_contributor "top_contributors" (by decide)
    e.topContributors
  have hfieldTexts : (e.fields.map fun field => memberText field.1 field.2.toText) =
      (e.fields.map fieldMember).map fun m => Json.writeString m.1 ++ Json.byte ':' :: m.2.write := by
    rw [List.map_map]
    exact List.map_congr_left fun field _ => fieldText_eq field
  have hrendered : e.renderJson = _ ++ ascii "\x7d" := congrArg (· ++ ascii "\x7d") hheld.text
  have hdocument : e.toJson.write = _ := Json.write_object _
  rw [hrendered, hdocument, List.nil_append, hfieldTexts, memberText_eq (by decide),
    memberText_eq (by decide), memberText_eq (by decide), memberText_eq (by decide), members,
    List.map_append]
  simp only [List.append_assoc]
  rfl

/-! ### What a reader finds -/

/-- Every string of an explanation is found under its name, cut to the bound, and every name is found
once. -/
structure FoundIn (e : Explanation) (members : List (Text × Json)) : Prop where
  distinct : (members.map Prod.fst).Nodup
  headline : (ascii "headline", .string (e.headline.take (kMaxIdentifierChars * 8))) ∈ members
  refusalDetail :
    (ascii "refusal_detail", .string (e.refusalDetail.take (kMaxIdentifierChars * 8))) ∈ members
  protectedExceptions : (ascii "protected_exceptions", .array
    (e.protectedExceptions.map fun text => .string (text.take (kMaxIdentifierChars * 8)))) ∈ members
  notes : (ascii "notes", .array
    (e.notes.map fun text => .string (text.take (kMaxIdentifierChars * 8)))) ∈ members
  dispositions : ∃ items, (ascii "top_contributors", .array items) ∈ members ∧
    List.Forall₂ (fun c item => ∃ found, item = .object found ∧ (found.map Prod.fst).Nodup ∧
      (ascii "disposition", .string (c.disposition.take (kMaxIdentifierChars * 8))) ∈ found)
      e.topContributors items

/-- The names are the words with these characters. -/
def Spelt (names : List Text) (words : List (List Char)) : Prop :=
  names = words.map fun word => word.map fun c => c.toNat.toUInt8

theorem spelt_nil : Spelt [] [] := rfl

theorem spelt_cons {names : List Text} {words : List (List Char)} {word : List Char}
    (h : Spelt names words) : Spelt (ascii (String.ofList word) :: names) (word :: words) := by
  rw [Spelt, h, ascii, String.toList_ofList, List.map_cons]

theorem spelt_rendered {names : List Text} {words : List (List Char)} {word : List Char}
    (hword : word.length ≤ 768) (h : Spelt names words) :
    Spelt (renderedPart (ascii (String.ofList word)) :: names) (word :: words) := by
  have hname : renderedPart (ascii (String.ofList word)) = ascii (String.ofList word) := by
    refine List.take_of_length_le ?_
    rwa [ascii, List.length_map, String.toList_ofList]
  rw [hname]
  exact spelt_cons h

theorem nodup_of_spelt {names : List Text} {words : List (List Char)} (h : Spelt names words)
    (hwords : (words.map fun word => word.map fun c => c.toNat.toUInt8).Nodup) : names.Nodup := by
  rwa [h]

/-- The names of a document, whatever its fields hold. -/
theorem member_names_nodup (e : Explanation) : (e.members.map Prod.fst).Nodup := by
  simp only [members, fields, fieldMember, List.map_cons, List.map_nil, List.cons_append,
    List.nil_append]
  apply nodup_of_spelt
  · iterate 68 apply spelt_rendered (by decide)
    iterate 4 apply spelt_cons
    exact spelt_nil
  · decide +kernel

theorem contributor_names_nodup (c : SenderContribution) :
    ((c.fields.map fieldMember).map Prod.fst).Nodup := by
  simp only [SenderContribution.fields, fieldMember, List.map_cons, List.map_nil]
  apply nodup_of_spelt
  · iterate 13 apply spelt_rendered (by decide)
    exact spelt_nil
  · decide +kernel

theorem mem_members {e : Explanation} {n : ℕ} {field : Text × FieldValue}
    (h : e.fields[n]? = some field) : fieldMember field ∈ e.members :=
  List.mem_append_left _ (List.mem_map_of_mem (List.mem_of_getElem? h))

theorem foundIn_members (e : Explanation) : e.FoundIn e.members where
  distinct := member_names_nodup e
  headline := @mem_members e 17 (ascii "headline", .string e.headline) rfl
  refusalDetail := @mem_members e 16 (ascii "refusal_detail", .string e.refusalDetail) rfl
  protectedExceptions := List.mem_append_right _ (.tail _ (.head _))
  notes := List.mem_append_right _ (.tail _ (.tail _ (.head _)))
  dispositions := by
    refine ⟨_, List.mem_append_right _ (.tail _ (.tail _ (.tail _ (.head _)))), ?_⟩
    rw [List.forall₂_map_right_iff, List.forall₂_same]
    intro c _
    have hfield : c.fields[12]? = some (ascii "disposition", .string c.disposition) := rfl
    exact ⟨_, rfl, contributor_names_nodup c,
      List.mem_map_of_mem (f := fieldMember) (List.mem_of_getElem? hfield)⟩

theorem shape_textItems (texts : List Text) :
    (textItems texts).shape = .array (List.replicate texts.length (.string [])) := by
  rw [textItems, Json.shape_array, List.map_map, ← List.map_const']
  rfl

/-- The fields of two explanations or of two contributors are of the same kinds. -/
theorem shape_fields (e other : Explanation) :
    ((e.fields.map fieldMember).map fun m => (m.1, m.2.shape)) =
      (other.fields.map fieldMember).map fun m => (m.1, m.2.shape) := by
  simp only [fields, List.map_cons, List.map_nil, fieldMember, FieldValue.toJson, Json.shape]

theorem shape_classFields (e other : Explanation) :
    (Json.object (e.classFields.map fieldMember)).shape =
      (Json.object (other.classFields.map fieldMember)).shape := by
  rw [Json.shape_object, Json.shape_object, classFields, classFields]
  simp only [List.map_map]
  rfl

theorem shape_contributor (c other : SenderContribution) :
    (Json.object (c.fields.map fieldMember)).shape =
      (Json.object (other.fields.map fieldMember)).shape := by
  rw [Json.shape_object, Json.shape_object]
  simp only [SenderContribution.fields, List.map_cons, List.map_nil, fieldMember,
    FieldValue.toJson, Json.shape]

theorem shape_contributors (contributors : List SenderContribution) :
    (Json.array (contributors.map fun c => .object (c.fields.map fieldMember))).shape =
      .array (List.replicate contributors.length
        (Json.object (({} : SenderContribution).fields.map fieldMember)).shape) := by
  rw [Json.shape_array, List.map_map, ← List.map_const']
  exact congrArg Json.array (List.map_congr_left fun c _ => shape_contributor c {})

/-- The shape of a document depends on the numbers of its items alone. -/
theorem shape_toJson {e other : Explanation}
    (hexceptions : other.protectedExceptions.length = e.protectedExceptions.length)
    (hnotes : other.notes.length = e.notes.length)
    (hcontributors : other.topContributors.length = e.topContributors.length) :
    other.toJson.shape = e.toJson.shape := by
  rw [toJson, toJson, Json.shape_object, Json.shape_object, members, members, List.map_append,
    List.map_append, shape_fields other e]
  simp only [List.map_cons, List.map_nil]
  rw [shape_classFields other e, shape_textItems, shape_textItems, shape_textItems, shape_textItems,
    shape_contributors, shape_contributors, hexceptions, hnotes, hcontributors]

/-- Rendered JSON is a text of the grammar, the parser reads every string back cut to the bound, and
the structure of what it reads depends on the numbers of items alone. -/
theorem renderJson_wellFormed (e : Explanation) :
    ∃ members, Json.IsText e.renderJson (.object members) ∧
      Json.parse e.renderJson = some (.object members) ∧ e.FoundIn members ∧
        ∀ other : Explanation,
          other.protectedExceptions.length = e.protectedExceptions.length →
          other.notes.length = e.notes.length →
          other.topContributors.length = e.topContributors.length →
            (Json.parse other.renderJson).map Json.shape = some (Json.shape (.object members)) := by
  have hparse : ∀ e : Explanation, Json.parse e.renderJson = some e.toJson := fun e => by
    rw [renderJson_eq_write]
    exact Json.parse_write e.toJson
  refine ⟨e.members, Json.isText_of_parse (hparse e), hparse e, foundIn_members e, ?_⟩
  intro other hexceptions hnotes hcontributors
  rw [hparse other, Option.map_some, shape_toJson hexceptions hnotes hcontributors, toJson]

end Explanation

end IncastGovernor
