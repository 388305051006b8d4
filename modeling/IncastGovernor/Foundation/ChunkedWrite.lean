import Mathlib.Data.List.Basic

/-! Exact writes to a sink that accepts in chunks. A loop hands the rest of its bytes to the sink
until all of them have gone; the sink takes a part of its own choosing off the front, and the loop
gives up where it takes nothing. What has gone is then a proper front of the bytes. -/

namespace IncastGovernor.Foundation

variable {σ β ε : Type*}

section Drain

variable (send : σ → List β → Option ℕ × σ) (stuck : ε)

/-- Transmissions until nothing is left; one that takes nothing is a failure. -/
def drain (sink : σ) (bytes : List β) : Except ε Unit × σ :=
  if bytes = [] then (.ok (), sink)
  else
    match send sink bytes with
    | (some (count + 1), next) => drain next (bytes.drop (count + 1))
    | (_, next) => (.error stuck, next)
termination_by bytes.length
decreasing_by
  have hpos : 0 < bytes.length := List.length_pos_iff.mpr ‹_›
  rw [List.length_drop]
  omega

variable {send stuck}

theorem drain_nil (sink : σ) : drain send stuck sink [] = (.ok (), sink) := by
  rw [drain, if_pos rfl]

theorem drain_some {sink next : σ} {bytes : List β} {count : ℕ} (hne : bytes ≠ [])
    (h : send sink bytes = (some (count + 1), next)) :
    drain send stuck sink bytes = drain send stuck next (bytes.drop (count + 1)) := by
  rw [drain, if_neg hne, h]

theorem drain_stuck {sink next : σ} {bytes : List β} {taken : Option ℕ} (hne : bytes ≠ [])
    (ht : taken = none ∨ taken = some 0) (h : send sink bytes = (taken, next)) :
    drain send stuck sink bytes = (.error stuck, next) := by
  rw [drain, if_neg hne, h]
  rcases ht with rfl | rfl <;> rfl

variable {gone : σ → List β}

/-- What a transmission takes goes out behind what has gone. -/
structure AcceptsChunks (send : σ → List β → Option ℕ × σ) (gone : σ → List β) : Prop where
  some : ∀ {sink next bytes count}, send sink bytes = (some count, next) →
    gone next = gone sink ++ bytes.take count
  none : ∀ {sink next bytes}, send sink bytes = (none, next) → gone next = gone sink

/-- A front of the bytes goes out: all of them where the loop succeeds, else a proper one. -/
theorem AcceptsChunks.drain (h : AcceptsChunks send gone) (bytes : List β) (sink : σ) :
    ∃ cut, gone (drain send stuck sink bytes).2 = gone sink ++ cut ∧ cut <+: bytes ∧
      ((drain send stuck sink bytes).1 = .ok () ∧ cut = bytes ∨
        (Foundation.drain send stuck sink bytes).1 = .error stuck ∧ cut.length < bytes.length) := by
  induction hn : bytes.length using Nat.strongRecOn generalizing bytes sink with
  | ind n ih =>
    by_cases hne : bytes = []
    · subst hne
      rw [drain_nil]
      exact ⟨[], (List.append_nil _).symm, List.nil_prefix, Or.inl ⟨rfl, rfl⟩⟩
    have hpos : 0 < bytes.length := List.length_pos_iff.mpr hne
    have hstuck : ∀ next, gone next = gone sink →
        Foundation.drain send stuck sink bytes = (.error stuck, next) → ∃ cut,
          gone (Foundation.drain send stuck sink bytes).2 = gone sink ++ cut ∧ cut <+: bytes ∧
            ((Foundation.drain send stuck sink bytes).1 = .ok () ∧ cut = bytes ∨
              (Foundation.drain send stuck sink bytes).1 = .error stuck ∧ cut.length < n) := by
      intro next hsame hdrain
      rw [hdrain]
      exact ⟨[], hsame.trans (List.append_nil _).symm, List.nil_prefix,
        Or.inr ⟨rfl, hn ▸ hpos⟩⟩
    cases hs : send sink bytes with
    | mk taken next =>
      cases taken with
      | none => exact hstuck next (h.none hs) (drain_stuck hne (Or.inl rfl) hs)
      | some taken =>
        have hgone := h.some hs
        cases taken with
        | zero =>
          rw [List.take_zero, List.append_nil] at hgone
          exact hstuck next hgone (drain_stuck hne (Or.inr rfl) hs)
        | succ count =>
          have hlater : (bytes.drop (count + 1)).length < n := by
            rw [List.length_drop]
            omega
          obtain ⟨cut, hnext, hprefix, hend⟩ := ih _ hlater (bytes.drop (count + 1)) next rfl
          rw [drain_some hne hs]
          refine ⟨bytes.take (count + 1) ++ cut, ?_, ?_, ?_⟩
          · rw [hnext, hgone, List.append_assoc]
          · obtain ⟨rest, hrest⟩ := hprefix
            exact ⟨rest, by rw [List.append_assoc, hrest, List.take_append_drop]⟩
          · refine hend.imp (fun ⟨hok, hcut⟩ => ⟨hok, ?_⟩) fun ⟨herror, hshort⟩ => ⟨herror, ?_⟩
            · rw [hcut, List.take_append_drop]
            · rw [List.length_append, List.length_take]
              rw [List.length_drop] at hshort
              omega

/-- A sink that takes a part of what it is handed, whatever it is. -/
structure Accepts (send : σ → List β → Option ℕ × σ) (ready : σ → Prop) : Prop where
  takes : ∀ {sink bytes}, ready sink → bytes ≠ [] → ∃ count next,
    send sink bytes = (some (count + 1), next) ∧ ready next

/-- To such a sink everything goes out. -/
theorem Accepts.drain {ready : σ → Prop} (h : Accepts send ready) (bytes : List β) {sink : σ}
    (hs : ready sink) : (drain send stuck sink bytes).1 = .ok () ∧
      ready (Foundation.drain send stuck sink bytes).2 := by
  induction hn : bytes.length using Nat.strongRecOn generalizing bytes sink with
  | ind n ih =>
    by_cases hne : bytes = []
    · subst hne
      rw [drain_nil]
      exact ⟨rfl, hs⟩
    have hpos : 0 < bytes.length := List.length_pos_iff.mpr hne
    obtain ⟨count, next, hsend, hnext⟩ := h.takes hs hne
    rw [drain_some hne hsend]
    refine ih _ ?_ (bytes.drop (count + 1)) hnext rfl
    rw [List.length_drop]
    omega

end Drain

end IncastGovernor.Foundation
