import Mathlib.Data.List.Basic

/-! Exact reads over a source that delivers in chunks. A source gives what it holds in parts
of its own choosing; a loop asks it for the rest of a count until the count is full, the source
ends or a reception fails. Where no reception fails the loop takes the first bytes of what the
source holds, however it is cut. -/

namespace IncastGovernor.Foundation

variable {σ β ε : Type*}

/-- How an exact read ends. -/
inductive Filled (β ε : Type*) where
  | full (bytes : List β)
  | ended
  | failed (error : ε)

namespace Filled

/-- Bytes that were read before. -/
def behind (chunk : List β) : Filled β ε → Filled β ε
  | full rest => full (chunk ++ rest)
  | ended => ended
  | failed error => failed error

end Filled

section Fill

variable (recv : σ → ℕ → Except ε (List β) × σ)

/-- Receptions until the count is full; an empty one is the end of the source. -/
def fill (source : σ) (count : ℕ) : Filled β ε × σ :=
  if count = 0 then (.full [], source)
  else
    match recv source count with
    | (.error error, next) => (.failed error, next)
    | (.ok chunk, next) =>
      if chunk = [] then (.ended, next)
      else
        let later := fill next (count - chunk.length)
        (later.1.behind chunk, later.2)
termination_by count
decreasing_by
  have hpos : 0 < chunk.length := List.length_pos_iff.mpr ‹_›
  omega

variable {recv}

theorem fill_zero (source : σ) : fill recv source 0 = (.full [], source) := by
  rw [fill, if_pos rfl]

theorem fill_error {source next : σ} {count : ℕ} {error : ε} (hc : count ≠ 0)
    (h : recv source count = (.error error, next)) :
    fill recv source count = (.failed error, next) := by
  rw [fill, if_neg hc, h]

theorem fill_end {source next : σ} {count : ℕ} (hc : count ≠ 0)
    (h : recv source count = (.ok [], next)) : fill recv source count = (.ended, next) := by
  rw [fill, if_neg hc, h]
  exact if_pos rfl

theorem fill_chunk {source next : σ} {count : ℕ} {chunk : List β} (hc : count ≠ 0)
    (hne : chunk ≠ []) (h : recv source count = (.ok chunk, next)) :
    fill recv source count = ((fill recv next (count - chunk.length)).1.behind chunk,
      (fill recv next (count - chunk.length)).2) := by
  rw [fill, if_neg hc, h]
  exact if_neg hne

variable {held : σ → List β}

/-- What a reception gives is off the front of what the source holds. -/
structure TakesChunks (recv : σ → ℕ → Except ε (List β) × σ) (held : σ → List β) : Prop where
  chunk : ∀ {source next count chunk}, recv source count = (.ok chunk, next) →
    chunk.length ≤ count ∧ held source = chunk ++ held next
  error : ∀ {source next count error}, recv source count = (.error error, next) →
    held source = held next

/-- An exact read takes off the front of the source too, and what it gives is what it took. -/
theorem TakesChunks.fill (h : TakesChunks recv held) (count : ℕ) : ∀ source, ∃ taken,
    held source = taken ++ held (fill recv source count).2 ∧
      ∀ bytes, (Foundation.fill recv source count).1 = .full bytes →
        taken = bytes ∧ bytes.length = count := by
  induction count using Nat.strongRecOn with
  | ind count ih =>
    intro source
    by_cases hc : count = 0
    · subst hc
      rw [fill_zero]
      exact ⟨[], rfl, fun bytes hb => by cases hb; exact ⟨rfl, rfl⟩⟩
    · cases hr : recv source count with
      | mk outcome next =>
        cases outcome with
        | error error =>
          rw [fill_error hc hr]
          exact ⟨[], h.error hr, nofun⟩
        | ok chunk =>
          obtain ⟨hlen, hheld⟩ := h.chunk hr
          by_cases hne : chunk = []
          · subst hne
            rw [fill_end hc hr]
            exact ⟨[], hheld, nofun⟩
          · have hpos : 0 < chunk.length := List.length_pos_iff.mpr hne
            obtain ⟨taken, hnext, hfull⟩ := ih (count - chunk.length) (by omega) next
            rw [fill_chunk hc hne hr]
            refine ⟨chunk ++ taken, by rw [hheld, hnext, List.append_assoc], fun bytes hb => ?_⟩
            cases hl : (Foundation.fill recv next (count - chunk.length)).1 with
            | full rest =>
              rw [hl] at hb
              obtain ⟨htaken, hrest⟩ := hfull rest hl
              obtain rfl : chunk ++ rest = bytes := by cases hb; rfl
              refine ⟨by rw [htaken], ?_⟩
              rw [List.length_append, hrest]
              omega
            | ended | failed error =>
              rw [hl] at hb
              cases hb

/-- A source that is ready gives a part of what it holds, and nothing only when it is empty. -/
structure Delivers (recv : σ → ℕ → Except ε (List β) × σ) (held : σ → List β)
    (ready : σ → Prop) : Prop where
  gives : ∀ {source count}, ready source → 0 < count → ∃ chunk next,
    recv source count = (.ok chunk, next) ∧ chunk.length ≤ count ∧
      held source = chunk ++ held next ∧ (chunk = [] → held source = []) ∧ ready next

variable {ready : σ → Prop} {source : σ} {count : ℕ}

/-- Where the source holds enough, the read is the front of it. -/
theorem Delivers.fill_full (h : Delivers recv held ready) (hs : ready source)
    (hc : count ≤ (held source).length) : ∃ next,
      fill recv source count = (.full ((held source).take count), next) ∧
        held next = (held source).drop count ∧ ready next := by
  induction count using Nat.strongRecOn generalizing source with
  | ind count ih =>
    by_cases hzero : count = 0
    · subst hzero
      exact ⟨source, fill_zero source, rfl, hs⟩
    · obtain ⟨chunk, next, hr, hlen, hheld, hempty, hnext⟩ :=
        h.gives hs (Nat.pos_of_ne_zero hzero)
      have hne : chunk ≠ [] := by
        intro hnil
        rw [hempty hnil] at hc
        exact hzero (Nat.le_zero.mp hc)
      have hpos : 0 < chunk.length := List.length_pos_iff.mpr hne
      have hlater : count - chunk.length ≤ (held next).length := by
        rw [hheld, List.length_append] at hc
        omega
      obtain ⟨last, hfill, hlast, hready⟩ := ih (count - chunk.length) (by omega) hnext hlater
      refine ⟨last, ?_, ?_, hready⟩
      · rw [fill_chunk hzero hne hr, hfill, hheld, List.take_append, List.take_of_length_le hlen]
        rfl
      · rw [hlast, hheld, List.drop_append, List.drop_of_length_le hlen, List.nil_append]

/-- Where it does not, the read ends and the source is empty. -/
theorem Delivers.fill_ended (h : Delivers recv held ready) (hs : ready source)
    (hc : (held source).length < count) : ∃ next,
      fill recv source count = (.ended, next) ∧ held next = [] ∧ ready next := by
  induction count using Nat.strongRecOn generalizing source with
  | ind count ih =>
    have hzero : count ≠ 0 := by omega
    obtain ⟨chunk, next, hr, hlen, hheld, hempty, hnext⟩ := h.gives hs (Nat.pos_of_ne_zero hzero)
    by_cases hne : chunk = []
    · subst hne
      exact ⟨next, fill_end hzero hr, hheld.symm.trans (hempty rfl), hnext⟩
    · have hpos : 0 < chunk.length := List.length_pos_iff.mpr hne
      have hlater : (held next).length < count - chunk.length := by
        rw [hheld, List.length_append] at hc
        omega
      obtain ⟨last, hfill, hlast, hready⟩ := ih (count - chunk.length) (by omega) hnext hlater
      refine ⟨last, ?_, hlast, hready⟩
      rw [fill_chunk hzero hne hr, hfill]
      rfl

end Fill

end IncastGovernor.Foundation
