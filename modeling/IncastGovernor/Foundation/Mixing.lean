import Mathlib.Data.BitVec
import Mathlib.Data.Fintype.EquivFin
import Mathlib.Data.Nat.ModEq
import Mathlib.Data.Nat.Prime.Basic

/-! Mixing steps of fixed-width words, and generators that mix a counter. A word exclusive-ored
with itself shifted down, and a word times an odd one, give away the word they were made of. A
counter that goes on by an odd increment goes through every word before it repeats one, and so does
what an injective mix makes of it. -/

namespace IncastGovernor.Foundation

open Function

variable {w : ℕ}

/-! ### Steps -/

/-- The shifted word is known where the word itself is: from the highest bit on downwards. -/
theorem xorShift_injective {shift : ℕ} (h : 0 < shift) :
    Injective fun x : BitVec w => x ^^^ (x >>> shift) := by
  intro x y heq
  have hbit : ∀ i,
      (x.getLsbD i ^^ x.getLsbD (shift + i)) = (y.getLsbD i ^^ y.getLsbD (shift + i)) := by
    intro i
    have hboth := congrArg (fun z => z.getLsbD i) heq
    simpa using hboth
  have hfrom : ∀ n i, w - i = n → x.getLsbD i = y.getLsbD i := by
    intro n
    induction n using Nat.strong_induction_on with
    | _ n ih =>
      intro i hi
      by_cases hlt : i < w
      · have habove := ih (w - (shift + i)) (by omega) (shift + i) rfl
        have hhere := hbit i
        rw [habove] at hhere
        simpa using hhere
      · rw [BitVec.getLsbD_of_ge x i (by omega), BitVec.getLsbD_of_ge y i (by omega)]
  exact BitVec.eq_of_getLsbD_eq fun i _ => hfrom (w - i) i rfl

theorem mul_odd_injective {factor : BitVec w} (h : factor.toNat % 2 = 1) :
    Injective fun x : BitVec w => x * factor := by
  intro x y heq
  have hmod : x.toNat * factor.toNat ≡ y.toNat * factor.toNat [MOD 2 ^ w] := by
    have htoNat := congrArg BitVec.toNat heq
    simp only [BitVec.toNat_mul] at htoNat
    exact htoNat
  have hcoprime : Nat.gcd (2 ^ w) factor.toNat = 1 :=
    Nat.Coprime.pow_left w (Nat.coprime_two_left.mpr (Nat.odd_iff.mpr h))
  have hsame := Nat.ModEq.cancel_right_of_coprime hcoprime hmod
  refine BitVec.eq_of_toNat_eq ?_
  rw [← Nat.mod_eq_of_lt x.isLt, ← Nat.mod_eq_of_lt y.isLt]
  exact hsame

/-! ### Counters -/

section Counter

variable (start : BitVec w) {increment : BitVec w} {mix : BitVec w → BitVec w}

/-- A counter with an odd increment repeats no word within its period. -/
theorem counter_injective (h : increment.toNat % 2 = 1) :
    Injective fun n : Fin (2 ^ w) => start + BitVec.ofFin n * increment := by
  intro n m heq
  have hsame : BitVec.ofFin n * increment = BitVec.ofFin m * increment :=
    (BitVec.add_right_inj start).mp heq
  exact congrArg BitVec.toFin (mul_odd_injective h hsame)

/-- What is mixed of the counter is every word once. -/
theorem counter_mix_bijective (h : increment.toNat % 2 = 1) (hmix : Injective mix) :
    Bijective fun n : Fin (2 ^ w) => mix (start + BitVec.ofFin n * increment) := by
  have hinjective := hmix.comp (counter_injective start h)
  refine ⟨hinjective, fun word => ?_⟩
  have hwords : Injective (BitVec.toFin : BitVec w → Fin (2 ^ w)) :=
    fun _ _ heq => congrArg BitVec.ofFin heq
  obtain ⟨n, hn⟩ := Finite.surjective_of_injective (hwords.comp hinjective) word.toFin
  exact ⟨n, hwords hn⟩

end Counter

end IncastGovernor.Foundation
