import Mathlib.Data.List.Nodup

/-! Lists collapsed to the first entry of each key. What is left holds every key of the list
once, in the order of its first entry. -/

namespace IncastGovernor.Foundation

variable {α κ : Type*} [DecidableEq κ] (key : α → κ)

/-- The entries whose key was not seen before. -/
def firstBy : List κ → List α → List α
  | _, [] => []
  | seen, entry :: rest =>
    if key entry ∈ seen then firstBy seen rest else entry :: firstBy (key entry :: seen) rest

variable {key} {seen : List κ} {entries : List α} {a : α}

/-- What is left are the first entries with a key that was not seen. -/
theorem mem_firstBy_iff :
    a ∈ firstBy key seen entries ↔
      key a ∉ seen ∧ entries.find? (fun b => key b = key a) = some a := by
  induction entries generalizing seen with
  | nil => simp [firstBy]
  | cons entry rest ih =>
    unfold firstBy
    by_cases hk : key entry = key a
    · rw [List.find?_cons_of_pos (by simpa using hk), Option.some.injEq]
      split_ifs with hs
      · rw [hk] at hs
        exact iff_of_false (fun h => (ih.mp h).1 hs) fun h => h.1 hs
      · rw [List.mem_cons, ih, ← hk]
        constructor
        · rintro (rfl | h)
          · exact ⟨hs, rfl⟩
          · exact absurd List.mem_cons_self h.1
        · exact fun h => Or.inl h.2.symm
    · rw [List.find?_cons_of_neg (by simpa using hk)]
      split_ifs with hs
      · exact ih
      · have hne : a ≠ entry := fun h => hk (h ▸ rfl)
        rw [List.mem_cons, ih, List.mem_cons, not_or]
        constructor
        · rintro (h | h)
          · exact absurd h hne
          · exact ⟨h.1.2, h.2⟩
        · exact fun h => Or.inr ⟨⟨fun he => hk he.symm, h.1⟩, h.2⟩

theorem nodup_map_firstBy : ((firstBy key seen entries).map key).Nodup := by
  induction entries generalizing seen with
  | nil => exact List.nodup_nil
  | cons entry rest ih =>
    unfold firstBy
    split_ifs with hs
    · exact ih
    · rw [List.map_cons, List.nodup_cons]
      refine ⟨fun hmem => ?_, ih⟩
      obtain ⟨b, hb, hbk⟩ := List.mem_map.mp hmem
      rw [mem_firstBy_iff, hbk] at hb
      exact hb.1 List.mem_cons_self

/-- Every key of the list is left. -/
theorem exists_mem_firstBy (h : a ∈ entries) : ∃ b ∈ firstBy key [] entries, key b = key a := by
  obtain ⟨b, hb⟩ : ∃ b, entries.find? (fun b => key b = key a) = some b := by
    rw [← Option.isSome_iff_exists, List.find?_isSome]
    exact ⟨a, h, by simp⟩
  have hk : key b = key a := by simpa using List.find?_some hb
  refine ⟨b, mem_firstBy_iff.mpr ⟨List.not_mem_nil, ?_⟩, hk⟩
  rw [hk]
  exact hb

/-- A list of distinct keys is left as it is. -/
theorem firstBy_of_nodup (h : (entries.map key).Nodup) (hs : ∀ a ∈ entries, key a ∉ seen) :
    firstBy key seen entries = entries := by
  induction entries generalizing seen with
  | nil => rfl
  | cons entry rest ih =>
    rw [List.map_cons, List.nodup_cons] at h
    rw [firstBy, if_neg (hs entry List.mem_cons_self), ih h.2]
    intro a ha hmem
    rcases List.mem_cons.mp hmem with he | he
    · exact h.1 (he ▸ List.mem_map_of_mem ha)
    · exact hs a (List.mem_cons_of_mem _ ha) he

end IncastGovernor.Foundation
