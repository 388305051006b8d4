import IncastGovernor.Core.Codec

/-! Readers and the bytes behind them. A local reader reads the same whatever follows the bytes
it takes; a strict one fails on anything that follows the bytes it accepts. A local read
before a strict one is strict, so a decoder is strict when it ends at the end of its bytes. -/

namespace IncastGovernor.Codec

section Readers

variable {α β : Type}

/-- The reader leaves the bytes behind what it reads as they are, and does not look at them. -/
def Local (reader : Reader α) : Prop :=
  ∀ bytes a rest, reader bytes = .ok (a, rest) →
    ∀ more, reader (bytes ++ more) = .ok (a, rest ++ more)

/-- The reader fails on bytes it accepts with anything behind them. -/
def Strict (reader : Reader α) : Prop :=
  ∀ bytes a rest, reader bytes = .ok (a, rest) →
    ∀ more, more ≠ [] → ∃ error, reader (bytes ++ more) = .error error

/-! ### Local readers -/

theorem local_pure (a : α) : Local (pure a : Reader α) := by
  intro bytes b rest h more
  obtain ⟨rfl, rfl⟩ := Prod.mk.inj (pure_eq_ok.mp h)
  rfl

theorem local_bind {reader : Reader α} {f : α → Reader β} (hr : Local reader)
    (hf : ∀ a, Local (f a)) : Local (reader >>= f) := by
  intro bytes b rest h more
  obtain ⟨a, mid, ha, hb⟩ := bind_eq_ok.mp h
  rw [bind_of_ok (hr _ _ _ ha more)]
  exact hf a _ _ _ hb more

theorem local_check {c : Prop} [Decidable c] {code : ErrorCode} {detail : String}
    {k : PUnit → Reader α} {later : Reader α} (h : Local later) :
    Local (if c then liftM (fail code detail : Outcome PUnit) >>= k else later) := by
  intro bytes a rest hr more
  obtain ⟨hc, hlater⟩ := check_eq_ok.mp hr
  exact check_eq_ok.mpr ⟨hc, h _ _ _ hlater more⟩

theorem local_fail (code : ErrorCode) (detail : String) :
    Local (liftM (fail code detail : Outcome α) : Reader α) := by
  intro bytes a rest h
  cases h

theorem local_readLe (count : ℕ) (detail : String) : Local (readLe count detail) := by
  intro bytes a rest h more
  obtain ⟨hlt, rfl⟩ := readLe_eq_ok.mp h
  rw [List.append_assoc]
  exact readLe_leBytes hlt detail _

theorem local_readU8 : Local readU8 := by
  intro bytes a rest h more
  cases bytes with
  | nil => cases h
  | cons byte bytes =>
    obtain ⟨rfl, rfl⟩ := Prod.mk.inj (Except.ok.inj h)
    rfl

theorem local_readU16 : Local readU16 :=
  local_bind (local_readLe 2 _) fun _ => local_pure _

theorem local_readU32 : Local readU32 :=
  local_bind (local_readLe 4 _) fun _ => local_pure _

theorem local_readU64 : Local readU64 :=
  local_bind (local_readLe 8 _) fun _ => local_pure _

theorem local_readI64 : Local readI64 := local_bind local_readU64 fun _ => local_pure _

theorem local_readBool : Local readBool := local_bind local_readU8 fun _ => local_pure _

theorem local_readRaw (size : ℕ) : Local (readRaw size) := by
  intro bytes text rest h more
  obtain ⟨hsize, rfl⟩ := readRaw_eq_ok.mp h
  exact readRaw_eq_ok.mpr ⟨hsize, List.append_assoc _ _ _⟩

/-- A check that enough bytes remain. -/
theorem local_remaining {needed : ℕ} {code : ErrorCode} {detail : String} {k : PUnit → Reader α}
    {later : Reader α} (h : Local later) :
    Local (get >>= fun bytes : Text =>
      if needed > bytes.length then liftM (fail code detail : Outcome PUnit) >>= k else later) := by
  intro bytes a rest hr more
  rw [bind_of_ok (get_eq_ok.mpr rfl)] at hr ⊢
  obtain ⟨hc, hlater⟩ := check_eq_ok.mp hr
  refine check_eq_ok.mpr ⟨?_, h _ _ _ hlater more⟩
  rw [List.length_append]
  omega

theorem local_readStr (maxChars : ℕ) : Local (readStr maxChars) :=
  local_bind local_readU32 fun _ => local_check (local_remaining (local_readRaw _))

theorem local_readEnum (all : List α) (detail : String) : Local (readEnum all detail) := by
  refine local_bind local_readU8 fun place => ?_
  cases all[place.toNat]? with
  | none => exact local_fail _ _
  | some a => exact local_pure a

theorem local_readMany {one : Reader α} (h : Local one) (count : ℕ) :
    Local (readMany one count) := by
  induction count with
  | zero => exact local_pure []
  | succ count ih => exact local_bind h fun _ => local_bind ih fun _ => local_pure _

/-! ### Strict readers -/

theorem strict_bind {reader : Reader α} {f : α → Reader β} (hr : Local reader)
    (hf : ∀ a, Strict (f a)) : Strict (reader >>= f) := by
  intro bytes b rest h more hmore
  obtain ⟨a, mid, ha, hb⟩ := bind_eq_ok.mp h
  rw [bind_of_ok (hr _ _ _ ha more)]
  exact hf a _ _ _ hb more hmore

theorem strict_check {c : Prop} [Decidable c] {code : ErrorCode} {detail : String}
    {k : PUnit → Reader α} {later : Reader α} (h : Strict later) :
    Strict (if c then liftM (fail code detail : Outcome PUnit) >>= k else later) := by
  intro bytes a rest hr more hmore
  obtain ⟨hc, hlater⟩ := check_eq_ok.mp hr
  rw [if_neg hc]
  exact h _ _ _ hlater more hmore

/-- A check that no bytes remain. -/
theorem strict_end {code : ErrorCode} {detail : String} {k : PUnit → Reader α}
    {later : Reader α} :
    Strict (get >>= fun bytes : Text =>
      if bytes ≠ [] then liftM (fail code detail : Outcome PUnit) >>= k else later) := by
  intro bytes a rest hr more hmore
  rw [bind_of_ok (get_eq_ok.mpr rfl)] at hr ⊢
  obtain ⟨hc, -⟩ := check_eq_ok.mp hr
  have hne : bytes ++ more ≠ [] := fun h => hmore (List.append_eq_nil_iff.mp h).2
  rw [if_pos hne]
  exact ⟨_, rfl⟩

/-! ### Decoders -/

/-- A decoder with a strict reader refuses what follows the bytes it accepts. -/
theorem decodeWith_append_error {reader : Reader α} (h : Strict reader) {bytes : Text} {a : α}
    (hd : decodeWith reader bytes = .ok a) {more : Text} (hmore : more ≠ []) :
    ∃ error, decodeWith reader (bytes ++ more) = .error error := by
  unfold decodeWith at hd ⊢
  cases hr : reader bytes with
  | error error =>
    rw [hr] at hd
    cases hd
  | ok result =>
    obtain ⟨error, herror⟩ := h _ _ _ hr more hmore
    rw [herror]
    exact ⟨error, rfl⟩

end Readers

end IncastGovernor.Codec
