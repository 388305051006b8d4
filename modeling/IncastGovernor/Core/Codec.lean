import IncastGovernor.Core.Primitives
import IncastGovernor.Foundation.LittleEndian

/-! The bounds-checked binary codec. A writer appends little-endian integers to a
buffer; a reader takes them off the front of the bytes that remain, and what a
writer wrote is read back. -/

namespace IncastGovernor.Codec

open Foundation

/-! ### Writer -/

def writeU8 (value : UInt8) : Text := [value]

def writeU16 (value : UInt16) : Text := leBytes 2 value.toNat

def writeU32 (value : UInt32) : Text := leBytes 4 value.toNat

def writeU64 (value : UInt64) : Text := leBytes 8 value.toNat

def writeI64 (value : Int64) : Text := writeU64 value.toUInt64

def writeBool (value : Bool) : Text := writeU8 (if value then 1 else 0)

/-- A string behind its length, both cut at the writer's cap. -/
def writeStr (text : Text) : Text :=
  let capped := text.take (kMaxIdentifierChars * 8)
  writeU32 (UInt32.ofNat capped.length) ++ capped

/-- The place of an enumerator among those of its type, in the order of the source. -/
def writeEnum {α : Type} [DecidableEq α] (all : List α) (a : α) : Text :=
  writeU8 (UInt8.ofNat (all.idxOf a))

/-! ### Reader -/

/-- A reader consumes a prefix of the bytes that remain. -/
abbrev Reader (α : Type) := StateT Text Outcome α

/-- A little-endian integer of some bytes, or the error of its kind. -/
def readLe (count : ℕ) (detail : String) : Reader ℕ := fun bytes =>
  if bytes.length < count then fail .truncatedInput detail
  else .ok (leValue (bytes.take count), bytes.drop count)

def readU16 : Reader UInt16 := do return UInt16.ofNat (← readLe 2 "u16 beyond end")

def readU32 : Reader UInt32 := do return UInt32.ofNat (← readLe 4 "u32 beyond end")

def readU64 : Reader UInt64 := do return UInt64.ofNat (← readLe 8 "u64 beyond end")

def readU8 : Reader UInt8 := fun bytes =>
  match bytes with
  | [] => fail .truncatedInput "u8 beyond end"
  | byte :: rest => .ok (byte, rest)

def readI64 : Reader Int64 := do return (← readU64).toInt64

def readBool : Reader Bool := do return (← readU8) ≠ 0

/-- `Reader::raw`: the next bytes as they are. -/
def readRaw (size : ℕ) : Reader Text := fun bytes =>
  if size > bytes.length then fail .truncatedInput "codec ran past the end of the buffer"
  else .ok (bytes.take size, bytes.drop size)

def readStr (maxChars : ℕ) : Reader Text := do
  let declared := (← readU32).toNat
  if declared > maxChars then
    fail .oversizedInput "string exceeds the declared bound"
  if declared > (← get).length then
    fail .truncatedInput "string payload truncated"
  readRaw declared

/-- An enumerator by its place; a place past the last one is the given error. -/
def readEnum {α : Type} (all : List α) (detail : String) : Reader α := do
  match all[(← readU8).toNat]? with
  | some a => return a
  | none => fail .corruptState detail

/-- An enumerator by its place, with the code of the error at a place past the last one. -/
def readEnumOr {α : Type} (code : ErrorCode) (all : List α) (detail : String) : Reader α := do
  match all[(← readU8).toNat]? with
  | some a => return a
  | none => fail code detail

/-- The end of the bytes; what is left behind it is malformed. -/
def readEnd (detail : String) : Reader Unit := do
  if (← get) ≠ [] then
    fail .malformedInput detail

/-- As many elements as a count that was read before. -/
def readMany {α : Type} (one : Reader α) : ℕ → Reader (List α)
  | 0 => return []
  | count + 1 => do
    let a ← one
    let rest ← readMany one count
    return a :: rest

/-- A reader of a whole buffer. -/
def decodeWith {α : Type} (reader : Reader α) (bytes : Text) : Outcome α :=
  (reader bytes).map fun result => result.1

theorem readLe_leBytes {count value : ℕ} (h : value < 256 ^ count) (detail : String) (rest : Text) :
    readLe count detail (leBytes count value ++ rest) = .ok (value, rest) := by
  have hlen : (leBytes count value).length = count := leBytes_length count value
  unfold readLe
  rw [if_neg (by rw [List.length_append, hlen]; omega), List.take_left' hlen,
    List.drop_left' hlen, leValue_leBytes, Nat.mod_eq_of_lt h]

@[simp] theorem readU16_writeU16 (value : UInt16) (rest : Text) :
    readU16 (writeU16 value ++ rest) = .ok (value, rest) := by
  have hlt : value.toNat < 256 ^ 2 := value.toNat_lt
  have h := readLe_leBytes hlt "u16 beyond end" rest
  simp only [readU16, writeU16, bind, StateT.bind, h, Except.bind]
  rw [UInt16.ofNat_toNat]
  rfl

@[simp] theorem readU32_writeU32 (value : UInt32) (rest : Text) :
    readU32 (writeU32 value ++ rest) = .ok (value, rest) := by
  have hlt : value.toNat < 256 ^ 4 := value.toNat_lt
  have h := readLe_leBytes hlt "u32 beyond end" rest
  simp only [readU32, writeU32, bind, StateT.bind, h, Except.bind]
  rw [UInt32.ofNat_toNat]
  rfl

@[simp] theorem readU64_writeU64 (value : UInt64) (rest : Text) :
    readU64 (writeU64 value ++ rest) = .ok (value, rest) := by
  have hlt : value.toNat < 256 ^ 8 := value.toNat_lt
  have h := readLe_leBytes hlt "u64 beyond end" rest
  simp only [readU64, writeU64, bind, StateT.bind, h, Except.bind]
  rw [UInt64.ofNat_toNat]
  rfl

/-! ### What a successful read has read -/

section Read

variable {α β : Type} {bytes rest : Text}

theorem bind_eq_ok {x : Reader α} {f : α → Reader β} {r : β × Text} :
    (x >>= f) bytes = .ok r ↔ ∃ a rest, x bytes = .ok (a, rest) ∧ f a rest = .ok r := by
  show (x bytes >>= fun s => f s.1 s.2) = .ok r ↔ _
  cases x bytes with
  | error error => exact ⟨nofun, by simp⟩
  | ok s =>
    obtain ⟨a, mid⟩ := s
    constructor
    · exact fun h => ⟨a, mid, rfl, h⟩
    · rintro ⟨a', mid', hs, h⟩
      obtain ⟨rfl, rfl⟩ := Prod.mk.inj (Except.ok.inj hs)
      exact h

theorem bind_of_ok {x : Reader α} {f : α → Reader β} {a : α} (h : x bytes = .ok (a, rest)) :
    (x >>= f) bytes = f a rest := by
  show (x bytes >>= fun s => f s.1 s.2) = _
  rw [h]
  rfl

theorem pure_eq_ok {a : α} {r : α × Text} :
    (pure a : Reader α) bytes = .ok r ↔ r = (a, bytes) :=
  ⟨fun h => (Except.ok.inj h).symm, fun h => h ▸ rfl⟩

theorem get_eq_ok {r : Text × Text} : (get : Reader Text) bytes = .ok r ↔ r = (bytes, bytes) :=
  ⟨fun h => (Except.ok.inj h).symm, fun h => h ▸ rfl⟩

theorem liftM_eq_ok {x : Outcome α} {r : α × Text} :
    (liftM x : Reader α) bytes = .ok r ↔ ∃ a, x = .ok a ∧ r = (a, bytes) := by
  cases x with
  | error error => exact ⟨nofun, by simp⟩
  | ok a =>
    constructor
    · exact fun h => ⟨a, rfl, (Except.ok.inj h).symm⟩
    · rintro ⟨a', ha, rfl⟩
      rw [Except.ok.inj ha]
      rfl

/-- A check of a reader that succeeds was passed. -/
theorem check_eq_ok {c : Prop} [Decidable c] {code : ErrorCode} {detail : String}
    {k : PUnit → Reader α} {later : Reader α} {r : α × Text} :
    (if c then liftM (fail code detail : Outcome PUnit) >>= k else later) bytes = .ok r ↔
      ¬c ∧ later bytes = .ok r := by
  by_cases hc : c
  · rw [if_pos hc]
    exact ⟨nofun, fun h => absurd hc h.1⟩
  · rw [if_neg hc]
    exact ⟨fun h => ⟨hc, h⟩, fun h => h.2⟩

theorem readLe_eq_ok {count value : ℕ} {detail : String} :
    readLe count detail bytes = .ok (value, rest) ↔
      value < 256 ^ count ∧ bytes = leBytes count value ++ rest := by
  constructor
  · intro h
    unfold readLe at h
    by_cases hlen : bytes.length < count
    · rw [if_pos hlen] at h
      cases h
    rw [if_neg hlen] at h
    obtain ⟨rfl, rfl⟩ := Prod.mk.inj (Except.ok.inj h)
    have htake : (bytes.take count).length = count := by
      rw [List.length_take]
      omega
    have hlt := leValue_lt (bytes.take count)
    have hbytes := leBytes_leValue (bytes.take count)
    rw [htake] at hlt hbytes
    refine ⟨hlt, ?_⟩
    rw [hbytes, List.take_append_drop]
  · rintro ⟨hlt, rfl⟩
    exact readLe_leBytes hlt detail rest

theorem readU16_eq_ok {value : UInt16} :
    readU16 bytes = .ok (value, rest) ↔ bytes = writeU16 value ++ rest := by
  constructor
  · intro h
    obtain ⟨n, mid, hr, hp⟩ := bind_eq_ok.mp h
    obtain ⟨rfl, rfl⟩ := Prod.mk.inj (pure_eq_ok.mp hp)
    obtain ⟨hlt, hb⟩ := readLe_eq_ok.mp hr
    rw [hb, writeU16, UInt16.toNat_ofNat_of_lt' hlt]
  · rintro rfl
    exact readU16_writeU16 value rest

theorem readU32_eq_ok {value : UInt32} :
    readU32 bytes = .ok (value, rest) ↔ bytes = writeU32 value ++ rest := by
  constructor
  · intro h
    obtain ⟨n, mid, hr, hp⟩ := bind_eq_ok.mp h
    obtain ⟨rfl, rfl⟩ := Prod.mk.inj (pure_eq_ok.mp hp)
    obtain ⟨hlt, hb⟩ := readLe_eq_ok.mp hr
    rw [hb, writeU32, UInt32.toNat_ofNat_of_lt' hlt]
  · rintro rfl
    exact readU32_writeU32 value rest

theorem readU64_eq_ok {value : UInt64} :
    readU64 bytes = .ok (value, rest) ↔ bytes = writeU64 value ++ rest := by
  constructor
  · intro h
    obtain ⟨n, mid, hr, hp⟩ := bind_eq_ok.mp h
    obtain ⟨rfl, rfl⟩ := Prod.mk.inj (pure_eq_ok.mp hp)
    obtain ⟨hlt, hb⟩ := readLe_eq_ok.mp hr
    rw [hb, writeU64, UInt64.toNat_ofNat_of_lt' hlt]
  · rintro rfl
    exact readU64_writeU64 value rest

theorem readRaw_eq_ok {size : ℕ} {text : Text} :
    readRaw size bytes = .ok (text, rest) ↔ text.length = size ∧ bytes = text ++ rest := by
  constructor
  · intro h
    unfold readRaw at h
    by_cases hlen : size > bytes.length
    · rw [if_pos hlen] at h
      cases h
    rw [if_neg hlen] at h
    obtain ⟨rfl, rfl⟩ := Prod.mk.inj (Except.ok.inj h)
    exact ⟨List.length_take_of_le (Nat.not_lt.mp hlen), (List.take_append_drop size bytes).symm⟩
  · rintro ⟨rfl, rfl⟩
    unfold readRaw
    rw [if_neg (by rw [List.length_append]; omega), List.take_left, List.drop_left]

end Read

/-- The outcome of two computations in a row. -/
theorem outcome_bind_eq_ok {α β : Type} {x : Outcome α} {f : α → Outcome β} {b : β} :
    (x >>= f) = .ok b ↔ ∃ a, x = .ok a ∧ f a = .ok b := by
  cases x with
  | error error => exact ⟨nofun, by simp⟩
  | ok a => exact ⟨fun h => ⟨a, rfl, h⟩, fun ⟨a', ha, h⟩ => Except.ok.inj ha ▸ h⟩

theorem outcome_check_eq_ok {α : Type} {c : Prop} [Decidable c] {code : ErrorCode}
    {detail : String} {k : PUnit → Outcome α} {later : Outcome α} {a : α} :
    (if c then (fail code detail : Outcome PUnit) >>= k else later) = .ok a ↔
      ¬c ∧ later = .ok a := by
  by_cases hc : c
  · rw [if_pos hc]
    exact ⟨nofun, fun h => absurd hc h.1⟩
  · rw [if_neg hc]
    exact ⟨fun h => ⟨hc, h⟩, fun h => h.2⟩

/-! ### What a writer wrote is read back -/

@[simp] theorem readI64_writeI64 (value : Int64) (rest : Text) :
    readI64 (writeI64 value ++ rest) = .ok (value, rest) := by
  unfold readI64 writeI64
  rw [bind_of_ok (readU64_writeU64 _ _)]
  rfl

@[simp] theorem readBool_writeBool (value : Bool) (rest : Text) :
    readBool (writeBool value ++ rest) = .ok (value, rest) := by
  cases value <;> rfl

/-- An enumerator of a small type is read back. -/
theorem readEnumOr_writeEnum {α : Type} [DecidableEq α] {all : List α} {a : α} (hmem : a ∈ all)
    (hsmall : all.length ≤ 256) (code : ErrorCode) (detail : String) (rest : Text) :
    readEnumOr code all detail (writeEnum all a ++ rest) = .ok (a, rest) := by
  have hlt : all.idxOf a < all.length := List.idxOf_lt_length_iff.mpr hmem
  have hindex : (UInt8.ofNat (all.idxOf a)).toNat = all.idxOf a :=
    UInt8.toNat_ofNat_of_lt' (Nat.lt_of_lt_of_le hlt hsmall)
  have hget : all[(UInt8.ofNat (all.idxOf a)).toNat]? = some a := by
    rw [hindex, List.getElem?_eq_getElem hlt, List.getElem_idxOf]
  unfold readEnumOr
  have hread : readU8 (writeEnum all a ++ rest) = .ok (UInt8.ofNat (all.idxOf a), rest) := rfl
  rw [bind_of_ok hread, hget]
  rfl

theorem readEnum_writeEnum {α : Type} [DecidableEq α] {all : List α} {a : α} (hmem : a ∈ all)
    (hsmall : all.length ≤ 256) (detail : String) (rest : Text) :
    readEnum all detail (writeEnum all a ++ rest) = .ok (a, rest) :=
  readEnumOr_writeEnum hmem hsmall .corruptState detail rest

/-- The length a string is written under fits its field. -/
theorem capped_length_toNat (text : Text) :
    (UInt32.ofNat (text.take (kMaxIdentifierChars * 8)).length).toNat =
      (text.take (kMaxIdentifierChars * 8)).length := by
  have hcap : (text.take (kMaxIdentifierChars * 8)).length ≤ kMaxIdentifierChars * 8 :=
    List.length_take_le _ _
  exact UInt32.toNat_ofNat_of_lt' (Nat.lt_of_le_of_lt hcap (by decide))

/-- A string is read back up to the writer's cap, if the reader's bound admits it. -/
theorem readStr_capped {bound : ℕ} {text : Text}
    (h : (text.take (kMaxIdentifierChars * 8)).length ≤ bound) (rest : Text) :
    readStr bound (writeStr text ++ rest) = .ok (text.take (kMaxIdentifierChars * 8), rest) := by
  unfold readStr writeStr
  simp only [List.append_assoc]
  rw [bind_of_ok (readU32_writeU32 _ _)]
  simp only [capped_length_toNat]
  rw [if_neg (Nat.not_lt.mpr h), bind_of_ok (get_eq_ok.mpr rfl),
    if_neg (by rw [List.length_append]; omega)]
  exact readRaw_eq_ok.mpr ⟨rfl, rfl⟩

/-- A string past the reader's bound is refused. -/
theorem readStr_oversized {bound : ℕ} {text : Text}
    (h : bound < (text.take (kMaxIdentifierChars * 8)).length) (rest : Text) :
    readStr bound (writeStr text ++ rest) =
      fail .oversizedInput "string exceeds the declared bound" := by
  unfold readStr writeStr
  simp only [List.append_assoc]
  rw [bind_of_ok (readU32_writeU32 _ _)]
  simp only [capped_length_toNat]
  rw [if_pos h]
  rfl

/-- A string within the writer's cap is read back. -/
theorem readStr_writeStr {text : Text} (h : text.length ≤ kMaxIdentifierChars * 8) (rest : Text) :
    readStr (kMaxIdentifierChars * 8) (writeStr text ++ rest) = .ok (text, rest) := by
  rw [readStr_capped (List.length_take_le _ _), List.take_of_length_le h]

/-- Elements that are read back one by one are read back in a row. -/
theorem readMany_flatMap {α : Type} {one : Reader α} {write : α → Text} {as : List α}
    (h : ∀ a ∈ as, ∀ rest, one (write a ++ rest) = .ok (a, rest)) (rest : Text) :
    readMany one as.length (as.flatMap write ++ rest) = .ok (as, rest) := by
  induction as with
  | nil => rfl
  | cons a as ih =>
    rw [List.length_cons, readMany, List.flatMap_cons, List.append_assoc,
      bind_of_ok (h a List.mem_cons_self _),
      bind_of_ok (ih fun b hb => h b (List.mem_cons_of_mem a hb))]
    rfl

/-- A reader of integers fails only at the end of the bytes. -/
theorem readLe_error {count : ℕ} {detail : String} {bytes : Text} {error : Error}
    (h : readLe count detail bytes = .error error) : error.code = .truncatedInput := by
  unfold readLe at h
  split_ifs at h
  rw [← Except.error.inj h]

theorem readU64_error {bytes : Text} {error : Error} (h : readU64 bytes = .error error) :
    error.code = .truncatedInput := by
  simp only [readU64, bind, StateT.bind] at h
  cases hr : readLe 8 "u64 beyond end" bytes with
  | error e =>
    rw [hr] at h
    rw [← Except.error.inj h]
    exact readLe_error hr
  | ok result =>
    rw [hr] at h
    cases h

theorem readU32_error {bytes : Text} {error : Error} (h : readU32 bytes = .error error) :
    error.code = .truncatedInput := by
  simp only [readU32, bind, StateT.bind] at h
  cases hr : readLe 4 "u32 beyond end" bytes with
  | error e =>
    rw [hr] at h
    rw [← Except.error.inj h]
    exact readLe_error hr
  | ok result =>
    rw [hr] at h
    cases h

/-! ### What is written first is told from what follows -/

section Injective

variable {first second : Text}

theorem append_inj_of_read {α : Type} {read : Reader α} {write : α → Text} {a b : α}
    (ha : ∀ rest, read (write a ++ rest) = .ok (a, rest))
    (hb : ∀ rest, read (write b ++ rest) = .ok (b, rest)) :
    write a ++ first = write b ++ second ↔ a = b ∧ first = second := by
  constructor
  · intro h
    have hread := ha first
    rw [h, hb] at hread
    obtain ⟨hab, hrest⟩ := Prod.mk.inj (Except.ok.inj hread)
    exact ⟨hab.symm, hrest.symm⟩
  · rintro ⟨rfl, rfl⟩
    rfl

theorem writeU8_append_inj {a b : UInt8} :
    writeU8 a ++ first = writeU8 b ++ second ↔ a = b ∧ first = second := List.cons_eq_cons

theorem writeU16_append_inj {a b : UInt16} :
    writeU16 a ++ first = writeU16 b ++ second ↔ a = b ∧ first = second :=
  append_inj_of_read (readU16_writeU16 a) (readU16_writeU16 b)

theorem writeU32_append_inj {a b : UInt32} :
    writeU32 a ++ first = writeU32 b ++ second ↔ a = b ∧ first = second :=
  append_inj_of_read (readU32_writeU32 a) (readU32_writeU32 b)

theorem writeU32_inj {a b : UInt32} (h : writeU32 a = writeU32 b) : a = b := by
  rw [← List.append_nil (writeU32 a), ← List.append_nil (writeU32 b)] at h
  exact (writeU32_append_inj.mp h).1

theorem writeU64_append_inj {a b : UInt64} :
    writeU64 a ++ first = writeU64 b ++ second ↔ a = b ∧ first = second :=
  append_inj_of_read (readU64_writeU64 a) (readU64_writeU64 b)

theorem writeI64_append_inj {a b : Int64} :
    writeI64 a ++ first = writeI64 b ++ second ↔ a = b ∧ first = second :=
  append_inj_of_read (readI64_writeI64 a) (readI64_writeI64 b)

theorem writeBool_append_inj {a b : Bool} :
    writeBool a ++ first = writeBool b ++ second ↔ a = b ∧ first = second :=
  append_inj_of_read (readBool_writeBool a) (readBool_writeBool b)

theorem writeStr_append_inj {a b : Text} (ha : a.length ≤ kMaxIdentifierChars * 8)
    (hb : b.length ≤ kMaxIdentifierChars * 8) :
    writeStr a ++ first = writeStr b ++ second ↔ a = b ∧ first = second :=
  append_inj_of_read (readStr_writeStr ha) (readStr_writeStr hb)

/-- Elements in a row, of which there are as many on both sides. -/
theorem flatMap_append_inj {α : Type} {write : α → Text} {as bs : List α}
    (hwrite : ∀ a b first second, write a ++ first = write b ++ second ↔ a = b ∧ first = second)
    (hlength : as.length = bs.length) :
    as.flatMap write ++ first = bs.flatMap write ++ second ↔ as = bs ∧ first = second := by
  induction as generalizing bs with
  | nil =>
    obtain rfl := List.length_eq_zero_iff.mp hlength.symm
    exact (and_iff_right rfl).symm
  | cons a as ih =>
    cases bs with
    | nil => cases hlength
    | cons b bs =>
      rw [List.flatMap_cons, List.flatMap_cons, List.append_assoc, List.append_assoc, hwrite,
        ih (Nat.succ.inj hlength), List.cons_eq_cons, and_assoc]

end Injective

/-! ### Lengths -/

@[simp] theorem writeU16_length (value : UInt16) : (writeU16 value).length = 2 :=
  leBytes_length 2 _

@[simp] theorem writeU32_length (value : UInt32) : (writeU32 value).length = 4 :=
  leBytes_length 4 _

@[simp] theorem writeU64_length (value : UInt64) : (writeU64 value).length = 8 :=
  leBytes_length 8 _

@[simp] theorem writeI64_length (value : Int64) : (writeI64 value).length = 8 :=
  writeU64_length _

@[simp] theorem writeBool_length (value : Bool) : (writeBool value).length = 1 := rfl

@[simp] theorem writeEnum_length {α : Type} [DecidableEq α] (all : List α) (a : α) :
    (writeEnum all a).length = 1 := rfl

/-- Elements of a bounded length one behind the other. -/
theorem flatMap_length_le {α : Type} {write : α → Text} {as : List α} {bound : ℕ}
    (h : ∀ a ∈ as, (write a).length ≤ bound) :
    (as.flatMap write).length ≤ bound * as.length := by
  induction as with
  | nil => exact Nat.zero_le _
  | cons a as ih =>
    have hfirst := h a List.mem_cons_self
    have hrest := ih fun b hb => h b (List.mem_cons_of_mem a hb)
    rw [List.flatMap_cons, List.length_append, List.length_cons, Nat.mul_succ]
    omega

theorem le_flatMap_length {α : Type} {write : α → Text} {as : List α} {bound : ℕ}
    (h : ∀ a ∈ as, bound ≤ (write a).length) :
    bound * as.length ≤ (as.flatMap write).length := by
  induction as with
  | nil => exact Nat.zero_le _
  | cons a as ih =>
    have hfirst := h a List.mem_cons_self
    have hrest := ih fun b hb => h b (List.mem_cons_of_mem a hb)
    rw [List.flatMap_cons, List.length_append, List.length_cons, Nat.mul_succ]
    omega

/-! ### Reads in a row -/

section Reads

variable {α : Type} {rest : Text}

@[simp] theorem readU16_bind (f : UInt16 → Reader α) (value : UInt16) :
    (readU16 >>= f) (writeU16 value ++ rest) = f value rest := bind_of_ok (readU16_writeU16 _ _)

@[simp] theorem readU32_bind (f : UInt32 → Reader α) (value : UInt32) :
    (readU32 >>= f) (writeU32 value ++ rest) = f value rest := bind_of_ok (readU32_writeU32 _ _)

@[simp] theorem readU64_bind (f : UInt64 → Reader α) (value : UInt64) :
    (readU64 >>= f) (writeU64 value ++ rest) = f value rest := bind_of_ok (readU64_writeU64 _ _)

@[simp] theorem readI64_bind (f : Int64 → Reader α) (value : Int64) :
    (readI64 >>= f) (writeI64 value ++ rest) = f value rest := bind_of_ok (readI64_writeI64 _ _)

@[simp] theorem readBool_bind (f : Bool → Reader α) (value : Bool) :
    (readBool >>= f) (writeBool value ++ rest) = f value rest := bind_of_ok (readBool_writeBool _ _)

@[simp] theorem readStr_bind (f : Text → Reader α) (text : Text) :
    (readStr (kMaxIdentifierChars * 8) >>= f) (writeStr text ++ rest) =
      f (text.take (kMaxIdentifierChars * 8)) rest :=
  bind_of_ok (readStr_capped (List.length_take_le _ _) _)

@[simp] theorem readEnd_bind (f : Unit → Reader α) (detail : String) :
    (readEnd detail >>= f) [] = f () [] := rfl

end Reads

end IncastGovernor.Codec
