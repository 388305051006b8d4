import Mathlib.Algebra.Order.Group.Nat
import Mathlib.Data.UInt
import IncastGovernor.Foundation.Saturating

/-! The core primitives: error codes, the structural bounds, 64-bit saturating
arithmetic and the table-driven CRC-32C. A byte string of the source is a list of
bytes; nothing requires it to be UTF-8. A `UInt64`, `UInt32` or `Int64` wraps
where the machine integer does. -/

namespace IncastGovernor

abbrev Text := List UInt8

/-- The bytes of an ASCII literal. -/
def ascii (s : String) : Text := s.toList.map fun c => c.toNat.toUInt8

/-- Decimal rendering, `format_u64`. -/
def formatU64 (value : UInt64) : Text :=
  (Nat.toDigits 10 value.toNat).map fun c => c.toNat.toUInt8

/-- `std::to_string` of a signed value. -/
def formatI64 (value : Int64) : Text :=
  if value < 0 then ascii "-" ++ formatU64 (0 - value.toUInt64) else formatU64 value.toUInt64

/-- A chain of checks gives nothing when the check and the rest of the chain do. -/
theorem ite_some_eq_none_iff {α : Type} {p : Prop} [Decidable p] {a : α} {rest : Option α} :
    (if p then some a else rest) = none ↔ ¬p ∧ rest = none := by
  by_cases h : p <;> simp [h]

/-! ### Structural bounds -/

def kMaxSendersPerWindow : ℕ := 8192
def kMaxQueueObservations : ℕ := 512
def kMaxPenalizedSenders : ℕ := 1024
def kMaxWindowHistory : ℕ := 256
def kMaxInterventions : ℕ := 512
def kMaxExplanationNotes : ℕ := 128
def kMaxExplanationBytes : ℕ := 64 * 1024
def kMaxJournalRecordBytes : ℕ := 2 ^ 18
def kMaxJournalRecordsBeforeSnapshot : ℕ := 4096
def kMaxIdentifierChars : ℕ := 96

def kSnapshotFormatVersion : UInt16 := 1
def kJournalFormatVersion : UInt16 := 1

/-! ### Errors -/

inductive ErrorCode where
  | none | invalidArgument | outOfRange | overflow | underflow | divideByZero | capacityExceeded
  | malformedInput | truncatedInput | oversizedInput | checksumMismatch | unsupportedVersion
  | notFound | alreadyExists | illegalTransition | staleGeneration | fencedEpoch | staleBoot
  | notAuthorized | ioFailure | corruptState | closed | protocolViolation | identityCollision
  | protectedFloorConflict | unknownEvidence | cancelled
  deriving DecidableEq

def ErrorCode.toText : ErrorCode → Text
  | .none => ascii "None"
  | .invalidArgument => ascii "InvalidArgument"
  | .outOfRange => ascii "OutOfRange"
  | .overflow => ascii "Overflow"
  | .underflow => ascii "Underflow"
  | .divideByZero => ascii "DivideByZero"
  | .capacityExceeded => ascii "CapacityExceeded"
  | .malformedInput => ascii "MalformedInput"
  | .truncatedInput => ascii "TruncatedInput"
  | .oversizedInput => ascii "OversizedInput"
  | .checksumMismatch => ascii "ChecksumMismatch"
  | .unsupportedVersion => ascii "UnsupportedVersion"
  | .notFound => ascii "NotFound"
  | .alreadyExists => ascii "AlreadyExists"
  | .illegalTransition => ascii "IllegalTransition"
  | .staleGeneration => ascii "StaleGeneration"
  | .fencedEpoch => ascii "FencedEpoch"
  | .staleBoot => ascii "StaleBoot"
  | .notAuthorized => ascii "NotAuthorized"
  | .ioFailure => ascii "IoFailure"
  | .corruptState => ascii "CorruptState"
  | .closed => ascii "Closed"
  | .protocolViolation => ascii "ProtocolViolation"
  | .identityCollision => ascii "IdentityCollision"
  | .protectedFloorConflict => ascii "ProtectedFloorConflict"
  | .unknownEvidence => ascii "UnknownEvidence"
  | .cancelled => ascii "Cancelled"

structure Error where
  code : ErrorCode := .none
  detail : Text := []
  deriving DecidableEq

/-- `Outcome<T>`: a value or an error. -/
abbrev Outcome (α : Type) := Except Error α

abbrev Status := Outcome Unit

def fail {α : Type} (code : ErrorCode) (detail : String) : Outcome α :=
  .error ⟨code, ascii detail⟩

/-- A check of a validation that succeeds is not the one that failed. -/
theorem of_check_ok {c : Prop} [Decidable c] {code : ErrorCode} {detail : String}
    {rest : Unit → Status} (h : (if c then (do let r ← fail code detail; rest r) else rest ()) = .ok ()) :
    ¬c ∧ rest () = .ok () := by
  by_cases hc : c
  · rw [if_pos hc] at h
    cases h
  · rw [if_neg hc] at h
    exact ⟨hc, h⟩

/-- The same of a group of checks made only under a condition. -/
theorem of_checks_ok {c : Prop} [Decidable c] {checks rest : Status}
    (h : (if c then checks else rest) = .ok ()) (hc : checks = .ok () → rest = .ok ()) :
    rest = .ok () := by
  split_ifs at h
  · exact hc h
  · exact h

theorem UInt32.min_le_right (a b : UInt32) : min a b ≤ b := by
  rw [UInt32.min_def]
  split_ifs with h
  · exact h
  · exact UInt32.le_refl b

/-! ### Saturating arithmetic -/

def u64Max : UInt64 := 0xFFFFFFFFFFFFFFFF

def saturatingAdd (a b : UInt64) : UInt64 := if a > u64Max - b then u64Max else a + b

def saturatingMul (a b : UInt64) : UInt64 :=
  if a = 0 ∨ b = 0 then 0
  else if a > u64Max / b then u64Max else a * b

theorem u64Max_toNat : u64Max.toNat = 2 ^ 64 - 1 := rfl

theorem le_u64Max (b : UInt64) : b ≤ u64Max := by
  rw [UInt64.le_iff_toNat_le, u64Max_toNat]
  have := b.toNat_lt
  omega

theorem saturatingAdd_toNat (a b : UInt64) :
    (saturatingAdd a b).toNat = min (a.toNat + b.toNat) (2 ^ 64 - 1) := by
  have ha := a.toNat_lt
  have hb := b.toNat_lt
  have hs : (u64Max - b).toNat = 2 ^ 64 - 1 - b.toNat := by
    rw [UInt64.toNat_sub_of_le _ _ (le_u64Max b), u64Max_toNat]
  unfold saturatingAdd
  by_cases h : a > u64Max - b
  · rw [if_pos h, u64Max_toNat]
    rw [gt_iff_lt, UInt64.lt_iff_toNat_lt, hs] at h
    omega
  · rw [if_neg h, UInt64.toNat_add]
    rw [gt_iff_lt, UInt64.lt_iff_toNat_lt, hs] at h
    omega

theorem saturatingMul_toNat (a b : UInt64) :
    (saturatingMul a b).toNat = min (a.toNat * b.toNat) (2 ^ 64 - 1) := by
  unfold saturatingMul
  by_cases h0 : a = 0 ∨ b = 0
  · rw [if_pos h0]
    rcases h0 with rfl | rfl <;> simp
  · rw [if_neg h0]
    push Not at h0
    have hb : 0 < b.toNat := Nat.pos_of_ne_zero fun h => h0.2 (UInt64.toNat_inj.mp (by simpa using h))
    have hd : (u64Max / b).toNat = (2 ^ 64 - 1) / b.toNat := by
      rw [UInt64.toNat_div, u64Max_toNat]
    by_cases h : a > u64Max / b
    · rw [if_pos h, u64Max_toNat]
      rw [gt_iff_lt, UInt64.lt_iff_toNat_lt, hd, Nat.div_lt_iff_lt_mul hb] at h
      omega
    · rw [if_neg h, UInt64.toNat_mul]
      rw [gt_iff_lt, UInt64.lt_iff_toNat_lt, hd, not_lt, Nat.le_div_iff_mul_le hb] at h
      rw [Nat.mod_eq_of_lt (by omega)]
      omega

/-- The accumulation of `saturating_add` over a list. -/
def saturatingSum (xs : List UInt64) : UInt64 := xs.foldl saturatingAdd 0

theorem foldl_saturatingAdd_toNat (xs : List UInt64) (a : UInt64) :
    (xs.foldl saturatingAdd a).toNat =
      (xs.map UInt64.toNat).foldl (fun acc x => min (acc + x) (2 ^ 64 - 1)) a.toNat := by
  induction xs generalizing a with
  | nil => rfl
  | cons x xs ih => rw [List.foldl_cons, ih, saturatingAdd_toNat, List.map_cons, List.foldl_cons]

theorem saturatingSum_toNat (xs : List UInt64) :
    (saturatingSum xs).toNat = min (xs.map UInt64.toNat).sum (2 ^ 64 - 1) := by
  unfold saturatingSum
  rw [foldl_saturatingAdd_toNat, UInt64.toNat_zero, Foundation.foldl_eq_cappedSum]
  rfl

/-! ### CRC-32C -/

/-- One bit of the reflected Castagnoli division. -/
def crcBit (crc : UInt32) : UInt32 :=
  if crc &&& 1 ≠ 0 then (crc >>> 1) ^^^ 0x82F63B78 else crc >>> 1

/-- `Crc32cTable`: entry `i` is eight bits of division applied to `i`. -/
def crcTable : List UInt32 := (List.range 256).map fun i => crcBit^[8] i.toUInt32

def crcUpdate (crc : UInt32) (byte : UInt8) : UInt32 :=
  crcTable.getD ((crc ^^^ byte.toUInt32) &&& 0xFF).toNat 0 ^^^ (crc >>> 8)

def crc32c (bytes : List UInt8) : UInt32 := bytes.foldl crcUpdate 0xFFFFFFFF ^^^ 0xFFFFFFFF

example : crc32c (ascii "123456789") = 0xE3069283 := by decide +kernel

end IncastGovernor
