import Mathlib.Data.List.Sort

/-! What a rearrangement of a list leaves alone. A fold whose steps commute up to a relation gives
related results, and entries with distinct keys are sorted by them into one list. -/

namespace IncastGovernor.Foundation

section Folding

variable {α σ : Type*} {step : σ → α → σ} {R : σ → σ → Prop}

theorem foldl_related (hstep : ∀ s t a, R s t → R (step s a) (step t a)) (entries : List α)
    {s t : σ} (h : R s t) : R (entries.foldl step s) (entries.foldl step t) := by
  induction entries generalizing s t with
  | nil => exact h
  | cons a rest ih => exact ih (hstep s t a h)

theorem foldl_perm (hR : Equivalence R) (hstep : ∀ s t a, R s t → R (step s a) (step t a))
    (hswap : ∀ s a b, R (step (step s a) b) (step (step s b) a)) {entries other : List α}
    (h : entries.Perm other) (s : σ) : R (entries.foldl step s) (other.foldl step s) := by
  induction h generalizing s with
  | nil => exact hR.refl s
  | cons a _ ih => exact ih (step s a)
  | swap a b rest => exact foldl_related hstep rest (hswap s b a)
  | trans _ _ ih1 ih2 => exact hR.trans (ih1 s) (ih2 s)

end Folding

section Sorting

variable {α β : Type*} [LinearOrder β] {key : α → β} {r : α → α → Prop} [DecidableRel r]
  {entries other : List α}

theorem pairwise_insertionSort_key (hr : ∀ a b, r a b ↔ key a ≤ key b) (entries : List α) :
    (entries.insertionSort r).Pairwise fun a b => key a ≤ key b := by
  have : Std.Total r := ⟨fun a b => by simpa only [hr] using le_total (key a) (key b)⟩
  have : IsTrans α r := ⟨fun a b c => by simpa only [hr] using le_trans⟩
  exact (List.pairwise_insertionSort r entries).imp fun h => (hr _ _).mp h

/-- Entries with distinct keys are sorted into one list, whatever order they come in. -/
theorem insertionSort_perm (hr : ∀ a b, r a b ↔ key a ≤ key b) (h : entries.Perm other)
    (hk : (entries.map key).Nodup) : entries.insertionSort r = other.insertionSort r := by
  have hsorted : (entries.insertionSort r).Perm (other.insertionSort r) :=
    (List.perm_insertionSort r entries).trans (h.trans (List.perm_insertionSort r other).symm)
  refine List.Perm.eq_of_pairwise (fun a b ha hb hab hba => ?_)
    (pairwise_insertionSort_key hr entries) (pairwise_insertionSort_key hr other) hsorted
  have hmem : b ∈ entries := by
    rw [h.mem_iff]
    exact (List.mem_insertionSort r).mp hb
  exact List.inj_on_of_nodup_map hk ((List.mem_insertionSort r).mp ha) hmem (le_antisymm hab hba)

end Sorting

end IncastGovernor.Foundation
