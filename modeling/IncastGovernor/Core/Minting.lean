import IncastGovernor.Core.Ids
import IncastGovernor.Foundation.BitFlip
import IncastGovernor.Foundation.Mixing

/-! Minted identities. A boot incarnation is one output of the generator, seeded by two clocks; a
worker id is a running hash of its name. Both are words of 64 bits with zero taken out, so the
question is which readings, and which names, are minted the same. -/

namespace IncastGovernor

open Foundation Function

/-! ### The generator -/

structure DeterministicRng where
  state : UInt64

namespace DeterministicRng

def increment : UInt64 := 0x9e3779b97f4a7c15

def mix (z : UInt64) : UInt64 :=
  let z := (z ^^^ (z >>> 30)) * 0xbf58476d1ce4e5b9
  let z := (z ^^^ (z >>> 27)) * 0x94d049bb133111eb
  z ^^^ (z >>> 31)

def next (rng : DeterministicRng) : UInt64 × DeterministicRng :=
  let state := rng.state + increment
  (mix state, ⟨state⟩)

/-- The generator behind so many calls of `next`. -/
def skip (rng : DeterministicRng) : ℕ → DeterministicRng
  | 0 => rng
  | n + 1 => (rng.skip n).next.2

/-- What the call of `next` behind so many others returns. -/
def output (rng : DeterministicRng) (n : ℕ) : UInt64 := (rng.skip n).next.1

theorem xorShift_injective (shift : UInt64) (h : 0 < shift.toNat % 64) :
    Injective fun x : UInt64 => x ^^^ (x >>> shift) := by
  intro x y heq
  refine UInt64.toBitVec_inj.mp (Foundation.xorShift_injective h ?_)
  have hwords := congrArg UInt64.toBitVec heq
  simpa using hwords

theorem mul_odd_injective (factor : UInt64) (h : factor.toNat % 2 = 1) :
    Injective fun x : UInt64 => x * factor := by
  intro x y heq
  have hodd : factor.toBitVec.toNat % 2 = 1 := h
  exact UInt64.toBitVec_inj.mp (Foundation.mul_odd_injective hodd (congrArg UInt64.toBitVec heq))

/-- The mix gives away the state. -/
theorem mix_injective : Injective mix := by
  have hfirst : Injective fun z : UInt64 => (z ^^^ (z >>> 30)) * 0xbf58476d1ce4e5b9 :=
    (mul_odd_injective _ (by decide)).comp (xorShift_injective 30 (by decide))
  have hsecond : Injective fun z : UInt64 => (z ^^^ (z >>> 27)) * 0x94d049bb133111eb :=
    (mul_odd_injective _ (by decide)).comp (xorShift_injective 27 (by decide))
  exact (xorShift_injective 31 (by decide)).comp (hsecond.comp hfirst)

/-- The first answer gives away the seed. -/
theorem next_eq_iff {seed seed' : UInt64} :
    (next ⟨seed⟩).1 = (next ⟨seed'⟩).1 ↔ seed = seed' := by
  constructor
  · intro h
    exact (UInt64.add_left_inj _).mp (mix_injective h)
  · rintro rfl
    rfl

variable (rng : DeterministicRng)

theorem skip_state (n : ℕ) : (rng.skip n).state = rng.state + UInt64.ofNat n * increment := by
  induction n with
  | zero => simp [skip]
  | succ n ih =>
    show (rng.skip n).state + increment = _
    rw [ih, UInt64.ofNat_add, UInt64.add_mul, ← UInt64.add_assoc]
    rfl

/-- The generator mixes a counter. -/
theorem output_eq (n : ℕ) :
    rng.output n = mix (rng.state + increment + UInt64.ofNat n * increment) := by
  show mix ((rng.skip n).state + increment) = _
  rw [skip_state, UInt64.add_assoc, UInt64.add_comm (UInt64.ofNat n * increment),
    ← UInt64.add_assoc]

/-- The mix of a string of bits. -/
def mixBits (word : BitVec 64) : BitVec 64 := (mix ⟨word⟩).toBitVec

theorem mixBits_injective : Injective mixBits := fun _ _ heq =>
  UInt64.ofBitVec.inj (mix_injective (UInt64.toBitVec_inj.mp heq))

theorem output_toBitVec (n : Fin (2 ^ 64)) :
    (rng.output n).toBitVec =
      mixBits ((rng.state + increment).toBitVec + BitVec.ofFin n * increment.toBitVec) := by
  have hn : UInt64.ofNat n = ⟨BitVec.ofFin n⟩ := by
    refine UInt64.toBitVec_inj.mp (BitVec.eq_of_toNat_eq ?_)
    exact Nat.mod_eq_of_lt n.isLt
  rw [output_eq, hn]
  rfl

/-- From whatever seed, the outputs are each word of 64 bits once before any of them comes
again. -/
theorem output_bijective : Bijective fun n : Fin (2 ^ 64) => rng.output n := by
  have hbits := @Foundation.counter_mix_bijective 64 (rng.state + increment).toBitVec
    increment.toBitVec mixBits (by decide) mixBits_injective
  refine ⟨fun n m heq => ?_, fun word => ?_⟩
  · refine hbits.1 ?_
    simp only [← output_toBitVec]
    exact congrArg UInt64.toBitVec heq
  · obtain ⟨n, hn⟩ := hbits.2 word.toBitVec
    simp only [← output_toBitVec] at hn
    exact ⟨n, UInt64.toBitVec_inj.mp hn⟩

end DeterministicRng

/-! ### Values that are not zero -/

/-- Zero is the absent identity, and one is minted in its place. -/
def orOne (value : UInt64) : UInt64 := if value = 0 then 1 else value

/-- The values that one is minted of. -/
def Folded (value : UInt64) : Prop := value = 0 ∨ value = 1

theorem orOne_ne_zero (value : UInt64) : orOne value ≠ 0 := by
  unfold orOne
  split_ifs with h
  · decide
  · exact h

theorem orOne_of_folded {value : UInt64} (h : Folded value) : orOne value = 1 := by
  rcases h with rfl | rfl <;> rfl

/-- Zero and one are minted the same, and no other two values are. -/
theorem orOne_eq_iff {value value' : UInt64} :
    orOne value = orOne value' ↔
      value = value' ∨ (Folded value ∧ Folded value') := by
  constructor
  · intro h
    unfold orOne at h
    split_ifs at h with hzero hzero' hzero'
    · exact Or.inl (hzero.trans hzero'.symm)
    · exact Or.inr ⟨Or.inl hzero, Or.inr h.symm⟩
    · exact Or.inr ⟨Or.inr h, Or.inl hzero'⟩
    · exact Or.inl h
  · rintro (rfl | ⟨h, h'⟩)
    · rfl
    · rw [orOne_of_folded h, orOne_of_folded h']

/-! ### Boot incarnations -/

/-- What the generator is seeded with, of the readings of the two clocks. -/
def bootSeed (nanos ticks : UInt64) : UInt64 := nanos ^^^ (ticks * 0x9E3779B97F4A7C15)

def mintBootIncarnation (nanos ticks : UInt64) : BootIncarnation :=
  let rng : DeterministicRng := ⟨bootSeed nanos ticks⟩
  ⟨orOne rng.next.1⟩

/-- The seeds the generator answers with zero and with one. -/
def foldedSeeds : List UInt64 := [0x61c8864680b583eb, 0xf8364607e9c949bd]

section Boots

variable (nanos ticks nanos' ticks' : UInt64)

theorem mintBootIncarnation_valid : (mintBootIncarnation nanos ticks).valid := orOne_ne_zero _

theorem next_folded_iff {seed : UInt64} :
    Folded (DeterministicRng.next ⟨seed⟩).1 ↔ seed ∈ foldedSeeds := by
  have hzero : (DeterministicRng.next ⟨0x61c8864680b583eb⟩).1 = 0 := by decide
  have hone : (DeterministicRng.next ⟨0xf8364607e9c949bd⟩).1 = 1 := by decide
  refine Iff.trans (or_congr ?_ ?_) List.mem_pair.symm
  · exact hzero ▸ DeterministicRng.next_eq_iff
  · exact hone ▸ DeterministicRng.next_eq_iff

theorem orOne_next_eq_iff {seed seed' : UInt64} :
    orOne (DeterministicRng.next ⟨seed⟩).1 = orOne (DeterministicRng.next ⟨seed'⟩).1 ↔
      seed = seed' ∨ (seed ∈ foldedSeeds ∧ seed' ∈ foldedSeeds) := by
  rw [orOne_eq_iff, DeterministicRng.next_eq_iff, next_folded_iff, next_folded_iff]

/-- Two boots are minted the same incarnation exactly if the readings of their clocks make the same
seed, or the two seeds are the ones that are answered with zero and with one. -/
theorem mintBootIncarnation_eq_iff :
    mintBootIncarnation nanos ticks = mintBootIncarnation nanos' ticks' ↔
      bootSeed nanos ticks = bootSeed nanos' ticks' ∨
        (bootSeed nanos ticks ∈ foldedSeeds ∧ bootSeed nanos' ticks' ∈ foldedSeeds) := by
  rw [← orOne_next_eq_iff]
  exact Iff.of_eq (BootIncarnation.mk.injEq _ _)

end Boots

/-! ### Worker ids -/

def nameStep (seed : UInt64) (character : UInt8) : UInt64 :=
  (seed ^^^ character.toUInt64) * 0x100000001B3

def nameHash (name : Text) : UInt64 := name.foldl nameStep 0xCBF29CE484222325

def mintWorkerId (name : Text) : WorkerId := ⟨orOne (nameHash name)⟩

theorem mintWorkerId_valid (name : Text) : (mintWorkerId name).valid := orOne_ne_zero _

theorem nameStep_separating : Separating nameStep where
  state := by
    intro seed seed' character heq
    have hxor := DeterministicRng.mul_odd_injective _ (by decide) heq
    exact (UInt64.xor_left_inj _).mp hxor
  input := by
    intro seed character character' heq
    have hxor := DeterministicRng.mul_odd_injective _ (by decide) heq
    have hwide := (UInt64.xor_right_inj seed).mp hxor
    exact UInt8.toUInt64_inj.mp hwide

/-- Names that differ in one character are never minted the same id, but for the two whose running
hashes are zero and one. -/
theorem mintWorkerId_character_eq_iff (front back : Text) (character character' : UInt8) :
    mintWorkerId (front ++ character :: back) = mintWorkerId (front ++ character' :: back) ↔
      character = character' ∨
        (Folded (nameHash (front ++ character :: back)) ∧
          Folded (nameHash (front ++ character' :: back))) := by
  have hhash : nameHash (front ++ character :: back) = nameHash (front ++ character' :: back) ↔
      character = character' := by
    constructor
    · intro heq
      simp only [nameHash, List.foldl_append, List.foldl_cons] at heq
      exact nameStep_separating.input (nameStep_separating.foldl_state heq)
    · rintro rfl
      rfl
  rw [← hhash, ← orOne_eq_iff, mintWorkerId, mintWorkerId, StrongId.mk.injEq]

end IncastGovernor
