import Mathlib.Data.Nat.Log
import IncastGovernor.Foundation.JsonText

/-! The number of bytes of a compact JSON text: the digits of its numbers, its strings with their
quotes, and the commas, colons and brackets between them. -/

namespace IncastGovernor.Foundation.Json

/-! ### Numbers -/

/-- The number of decimal digits. -/
def decimalWidth (n : ℕ) : ℕ := Nat.log 10 n + 1

def integerWidth (n : ℤ) : ℕ := (if n < 0 then 1 else 0) + decimalWidth n.natAbs

theorem integerWidth_natCast (n : ℕ) : integerWidth n = decimalWidth n := by
  rw [integerWidth, if_neg (by omega), Nat.zero_add, Int.natAbs_natCast]

theorem decimalWidth_pos (n : ℕ) : 1 ≤ decimalWidth n := Nat.le_add_left 1 _

theorem decimalWidth_le_iff {n k : ℕ} (hk : 0 < k) : decimalWidth n ≤ k ↔ n < 10 ^ k :=
  ⟨fun h => Nat.lt_pow_of_log_lt (by decide) h, fun h => Nat.log_lt_of_lt_pow' hk.ne' h⟩

theorem length_writeNat (n : ℕ) : (writeNat n).length = decimalWidth n := by
  have hle : ∀ k, 0 < k → ((writeNat n).length ≤ k ↔ decimalWidth n ≤ k) := by
    intro k hk
    rw [writeNat, List.length_map, Nat.length_toDigits_le_iff (by decide) hk, decimalWidth_le_iff hk]
  have hpos : 0 < (writeNat n).length := by
    rw [writeNat, List.length_map]
    exact Nat.length_toDigits_pos
  exact le_antisymm ((hle _ (decimalWidth_pos n)).mpr le_rfl) ((hle _ hpos).mp le_rfl)

theorem length_writeInt (n : ℤ) : (writeInt n).length = integerWidth n := by
  rw [writeInt, List.length_append, length_writeNat, integerWidth]
  split_ifs <;> rfl

theorem length_write_integer (n : ℤ) : (write (.number n 0)).length = integerWidth n := by
  rw [write, writeNumber, if_pos rfl, List.append_nil, length_writeInt]

/-! ### Strings -/

theorem escapeByte_plain {b : UInt8} (h : isPlain b) : escapeByte b = [b] := by
  simp only [isPlain, decide_eq_true_eq] at h
  obtain ⟨hlow, hquote, hslash⟩ := h
  have hnot : ∀ c : UInt8, c < 0x20 → b ≠ c := by
    rintro c hc rfl
    exact absurd hlow (UInt8.not_le.mpr hc)
  rw [escapeByte, if_neg hquote, if_neg hslash, if_neg (hnot 0x0A (by decide)),
    if_neg (hnot 0x0D (by decide)), if_neg (hnot 0x09 (by decide)), if_neg (UInt8.not_lt.mpr hlow)]

/-- A string without escapes costs its quotes. -/
theorem length_writeString {value : List UInt8} (h : ∀ b ∈ value, isPlain b) :
    (writeString value).length = value.length + 2 := by
  have hflat : value.flatMap escapeByte = value := by
    rw [List.flatMap_congr fun b hb => escapeByte_plain (h b hb)]
    exact List.flatMap_singleton' value
  rw [writeString, hflat, List.length_cons, List.length_append]
  rfl

/-! ### Arrays and objects -/

theorem length_joined (texts : List (List UInt8)) :
    (joined texts).length = (texts.map List.length).sum + (texts.length - 1) := by
  cases texts with
  | nil => rfl
  | cons text texts =>
    have hflat : (texts.flatMap fun next => byte ',' :: next).length =
        (texts.map List.length).sum + texts.length := by
      induction texts with
      | nil => rfl
      | cons next texts ih =>
        rw [List.flatMap_cons, List.length_append, ih, List.length_cons, List.map_cons,
          List.sum_cons, List.length_cons]
        omega
    rw [joined_cons, List.length_append, hflat, List.map_cons, List.sum_cons, List.length_cons]
    omega

theorem length_write_array (items : List Json) :
    (write (.array items)).length =
      (items.map fun item => (write item).length).sum + (items.length - 1) + 2 := by
  rw [write, writeItems_eq_map, List.length_cons, List.length_append, length_joined, List.map_map,
    List.length_map]
  rfl

/-- A member is a quoted name, a colon and a value. -/
theorem length_write_object (members : List (List UInt8 × Json)) :
    (write (.object members)).length =
      (members.map fun m => (writeString m.1).length + (write m.2).length + 1).sum +
        (members.length - 1) + 2 := by
  have hmember : (members.map fun m => writeString m.1 ++ byte ':' :: write m.2).map List.length =
      members.map fun m => (writeString m.1).length + (write m.2).length + 1 := by
    rw [List.map_map]
    refine List.map_congr_left fun m _ => ?_
    rw [Function.comp_apply, List.length_append, List.length_cons, Nat.add_assoc]
  rw [write_object, List.length_cons, List.length_append, length_joined, hmember, List.length_map]
  rfl

end IncastGovernor.Foundation.Json
