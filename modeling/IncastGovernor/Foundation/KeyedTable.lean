import Mathlib.Data.List.Nodup
import Mathlib.Data.List.Perm.Basic

/-! Keyed tables: finite maps as lists of entries with distinct keys, each entry
holding its own key. An update never changes a key, so a table is well formed by
construction. A map that is iterated in no particular order is traversed in any
order an enumeration gives it. -/

namespace IncastGovernor.Foundation

/-- An order of iteration: some rearrangement of every list. -/
structure Enumeration (α : Type*) where
  order : List α → List α
  perm : ∀ entries, (order entries).Perm entries

/-- The order of the list itself. -/
def Enumeration.inOrder (α : Type*) : Enumeration α := ⟨id, fun entries => List.Perm.refl entries⟩

structure KeyedTable {α κ : Type*} (key : α → κ) where
  entries : List α := []
  nodup : (entries.map key).Nodup := by exact List.nodup_nil

namespace KeyedTable

variable {α κ : Type*} {key : α → κ} (t : KeyedTable key)

/-- Every entry changed, its key kept. -/
def mapEntries (f : α → α) (h : ∀ a, key (f a) = key a) : KeyedTable key where
  entries := t.entries.map f
  nodup := by
    rw [List.map_map, show key ∘ f = key from funext h]
    exact t.nodup

/-- Other entries under the same keys. -/
def withEntries (entries : List α) (h : (entries.map key).Perm (t.entries.map key)) :
    KeyedTable key :=
  ⟨entries, h.nodup_iff.mpr t.nodup⟩

variable {t}

theorem eq_of_key_eq {a b : α} (ha : a ∈ t.entries) (hb : b ∈ t.entries) (h : key a = key b) :
    a = b :=
  List.inj_on_of_nodup_map t.nodup ha hb h

@[simp] theorem mem_mapEntries {f : α → α} {h : ∀ a, key (f a) = key a} {b : α} :
    b ∈ (t.mapEntries f h).entries ↔ ∃ a ∈ t.entries, f a = b := List.mem_map

section Keyed

variable [DecidableEq κ] (t)

def find (k : κ) : Option α := t.entries.find? fun a => key a = k

/-- The entry of a key changed. -/
def modify (k : κ) (f : α → α) (h : ∀ a, key (f a) = key a) : KeyedTable key :=
  t.mapEntries (fun a => if key a = k then f a else a) fun a => by split_ifs <;> simp [h]

/-- A new entry, unless its key is taken. -/
def emplace (a : α) : KeyedTable key :=
  if h : key a ∈ t.entries.map key then t
  else
    { entries := t.entries ++ [a]
      nodup := by
        rw [List.map_append, List.map_singleton, List.nodup_append]
        refine ⟨t.nodup, List.nodup_singleton _, fun x hx y hy hxy => ?_⟩
        rw [List.mem_singleton.mp hy] at hxy
        exact h (hxy ▸ hx) }

variable {t}

theorem find_eq_some {k : κ} {a : α} : t.find k = some a ↔ a ∈ t.entries ∧ key a = k := by
  unfold find
  constructor
  · intro h
    exact ⟨List.mem_of_find?_eq_some h, by simpa using List.find?_some h⟩
  · rintro ⟨ha, rfl⟩
    cases hf : t.entries.find? fun b => decide (key b = key a) with
    | none => simpa using List.find?_eq_none.mp hf a ha
    | some b =>
      have hb : key b = key a := by simpa using List.find?_some hf
      rw [eq_of_key_eq (List.mem_of_find?_eq_some hf) ha hb]

theorem find_eq_none {k : κ} : t.find k = none ↔ ∀ a ∈ t.entries, key a ≠ k := by
  simp [find, List.find?_eq_none]

theorem mem_modify {k : κ} {f : α → α} {h : ∀ a, key (f a) = key a} {b : α} :
    b ∈ (t.modify k f h).entries ↔
      ∃ a ∈ t.entries, (if key a = k then f a else a) = b := List.mem_map

/-- A change that leaves the entry of its key alone leaves the table alone. -/
theorem modify_eq_self {k : κ} {f : α → α} {h : ∀ a, key (f a) = key a}
    (hf : ∀ a ∈ t.entries, key a = k → f a = a) : t.modify k f h = t := by
  obtain ⟨entries, nodup⟩ := t
  have hmap : entries.map (fun a => if key a = k then f a else a) = entries := by
    refine (List.map_congr_left fun a ha => ?_).trans (List.map_id entries)
    split_ifs with hk
    · exact hf a ha hk
    · rfl
  unfold modify mapEntries
  simp only [hmap]

theorem emplace_entries {a : α} (hk : ∀ c ∈ t.entries, key c ≠ key a) :
    (t.emplace a).entries = t.entries ++ [a] := by
  have hn : key a ∉ t.entries.map key := by
    rw [List.mem_map]
    rintro ⟨c, hc, hca⟩
    exact hk c hc hca
  rw [emplace, dif_neg hn]

end Keyed

end KeyedTable

end IncastGovernor.Foundation
