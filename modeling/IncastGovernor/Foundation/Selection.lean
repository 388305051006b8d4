import Mathlib.Data.List.Induction
import Mathlib.Data.List.Perm.Basic
import Mathlib.Order.Lattice

/-! Selection of a largest entry in one pass over a list. The first entry with the largest key
is kept. Where the keys tell the entries apart, the order of the list does not matter. -/

namespace IncastGovernor.Foundation

variable {α β : Type*} [LinearOrder β] (key : α → β)

/-- The kept entry after one more is seen. -/
def keepLarger (kept : Option α) (entry : α) : Option α :=
  match kept with
  | none => some entry
  | some best => if key best < key entry then some entry else some best

/-- The first entry with the largest key. -/
def firstLargest (entries : List α) : Option α := entries.foldl (keepLarger key) none

/-- An entry that beats all entries before it and is beaten by none behind it. -/
def Leads (entries : List α) (best : α) : Prop :=
  ∃ before behind, entries = before ++ best :: behind ∧
    (∀ entry ∈ before, key entry < key best) ∧ ∀ entry ∈ behind, key entry ≤ key best

variable {key} {entries other : List α} {best entry : α}

theorem Leads.mem (h : Leads key entries best) : best ∈ entries := by
  obtain ⟨before, behind, rfl, -, -⟩ := h
  simp

theorem Leads.le (h : Leads key entries best) (he : entry ∈ entries) : key entry ≤ key best := by
  obtain ⟨before, behind, rfl, hbefore, hbehind⟩ := h
  rcases List.mem_append.mp he with hb | hb
  · exact (hbefore entry hb).le
  · rcases List.mem_cons.mp hb with rfl | hb
    · exact le_rfl
    · exact hbehind entry hb

theorem firstLargest_concat (entries : List α) (entry : α) :
    firstLargest key (entries ++ [entry]) = keepLarger key (firstLargest key entries) entry := by
  simp [firstLargest]

theorem firstLargest_eq_none_iff : firstLargest key entries = none ↔ entries = [] := by
  cases entries using List.reverseRecOn with
  | nil => simp [firstLargest]
  | append_singleton rest entry =>
    rw [firstLargest_concat]
    unfold keepLarger
    split
    · simp
    · split_ifs <;> simp

/-- What is kept leads what was seen. -/
theorem leads_of_firstLargest (h : firstLargest key entries = some best) :
    Leads key entries best := by
  induction entries using List.reverseRecOn generalizing best with
  | nil => simp [firstLargest] at h
  | append_singleton rest entry ih =>
    rw [firstLargest_concat] at h
    cases hk : firstLargest key rest with
    | none =>
      rw [hk] at h
      obtain rfl : rest = [] := firstLargest_eq_none_iff.mp hk
      obtain rfl : entry = best := Option.some.inj h
      exact ⟨[], [], rfl, by simp, by simp⟩
    | some kept =>
      rw [hk] at h
      unfold keepLarger at h
      simp only at h
      split_ifs at h with hlt
      · obtain rfl : entry = best := Option.some.inj h
        exact ⟨rest, [], rfl, fun e he => ((ih hk).le he).trans_lt hlt, by simp⟩
      · obtain rfl : kept = best := Option.some.inj h
        obtain ⟨before, behind, rfl, hbefore, hbehind⟩ := ih hk
        refine ⟨before, behind ++ [entry], by simp, hbefore, fun e he => ?_⟩
        rcases List.mem_append.mp he with he | he
        · exact hbehind e he
        · rw [List.mem_singleton.mp he]
          exact not_lt.mp hlt

theorem foldl_keepLarger_of_le (h : ∀ entry ∈ entries, key entry ≤ key best) :
    entries.foldl (keepLarger key) (some best) = some best := by
  induction entries with
  | nil => rfl
  | cons first rest ih =>
    have hfirst : ¬key best < key first := not_lt.mpr (h first List.mem_cons_self)
    rw [List.foldl_cons, show keepLarger key (some best) first = some best from if_neg hfirst]
    exact ih fun entry he => h entry (List.mem_cons_of_mem _ he)

theorem firstLargest_eq_some_iff : firstLargest key entries = some best ↔ Leads key entries best := by
  refine ⟨leads_of_firstLargest, ?_⟩
  rintro ⟨before, behind, rfl, hbefore, hbehind⟩
  have hkept : keepLarger key (firstLargest key before) best = some best := by
    cases hk : firstLargest key before with
    | none => rfl
    | some kept => exact if_pos (hbefore kept (leads_of_firstLargest hk).mem)
  have hsplit : firstLargest key (before ++ best :: behind) =
      behind.foldl (keepLarger key) (keepLarger key (firstLargest key before) best) := by
    simp [firstLargest]
  rw [hsplit, hkept, foldl_keepLarger_of_le hbehind]

/-- A fold from the first entry on that keeps the larger key computes the same entry. -/
theorem foldl_eq_firstLargest {f : α → α → α}
    (h : ∀ kept entry, some (f kept entry) = keepLarger key (some kept) entry) (first : α)
    (rest : List α) : some (rest.foldl f first) = firstLargest key (first :: rest) := by
  change _ = rest.foldl (keepLarger key) (some first)
  induction rest generalizing first with
  | nil => rfl
  | cons entry rest ih => rw [List.foldl_cons, List.foldl_cons, ← h, ih]

theorem exists_leads (h : entry ∈ entries) :
    ∃ best, firstLargest key entries = some best ∧ Leads key entries best := by
  cases hf : firstLargest key entries with
  | none =>
    rw [firstLargest_eq_none_iff.mp hf] at h
    cases h
  | some best => exact ⟨best, rfl, leads_of_firstLargest hf⟩

/-- With keys that tell the entries apart, any order of the list gives the same entry. -/
theorem firstLargest_perm (h : entries.Perm other)
    (hk : ∀ a ∈ entries, ∀ b ∈ entries, key a = key b → a = b) :
    firstLargest key entries = firstLargest key other := by
  cases hf : firstLargest key entries with
  | none =>
    rw [firstLargest_eq_none_iff] at hf
    rw [hf] at h
    rw [List.nil_perm.mp h]
    rfl
  | some best =>
    cases ho : firstLargest key other with
    | none =>
      rw [firstLargest_eq_none_iff] at ho
      rw [ho, List.perm_nil] at h
      rw [h] at hf
      cases hf
    | some leader =>
      have hb := leads_of_firstLargest hf
      have hl := leads_of_firstLargest ho
      have hmem : leader ∈ entries := h.mem_iff.mpr hl.mem
      have heq : key best = key leader := le_antisymm (hl.le (h.mem_iff.mp hb.mem)) (hb.le hmem)
      rw [hk best hb.mem leader hmem heq]

end IncastGovernor.Foundation
