import IncastGovernor.Core.Codec
import IncastGovernor.Core.Ids
import IncastGovernor.Durable.File

/-! The epoch ledger: one file that holds the coordinator's epoch under a checksum.
A restart reads it, and what a store published is what the next load reads. -/

namespace IncastGovernor

open Codec

/-- 'IGEP'. -/
def kLeaseLedgerMagic : UInt32 := 0x50454749

/-- A ledger with the content of the file behind its path; a ledger that is not open
has no path. -/
structure EpochLedger where
  path : Text := []
  file : Option Text := none

def ledgerBody (epoch : EpochId) : Text :=
  writeU32 kLeaseLedgerMagic ++ (writeU16 kSnapshotFormatVersion ++ writeU64 epoch.value)

/-- The 18 bytes of a ledger file. -/
def encodeLedger (epoch : EpochId) : Text :=
  ledgerBody epoch ++ writeU32 (crc32c (ledgerBody epoch))

def decodeLedger (buffer : Text) : Outcome EpochId :=
  match readU32 buffer with
  | .error _ => fail .corruptState "epoch ledger magic mismatch"
  | .ok (magic, buffer') =>
    if magic ≠ kLeaseLedgerMagic then fail .corruptState "epoch ledger magic mismatch"
    else
      match readU16 buffer' with
      | .error _ => fail .unsupportedVersion "unsupported epoch ledger version"
      | .ok (version, buffer'') =>
        if version ≠ kSnapshotFormatVersion then
          fail .unsupportedVersion "unsupported epoch ledger version"
        else do
          let (epoch, buffer''') ← readU64 buffer''
          let (checksum, _) ← readU32 buffer'''
          if crc32c (buffer.take 14) ≠ checksum then
            fail .checksumMismatch "epoch ledger failed its integrity check"
          else return ⟨epoch⟩

namespace EpochLedger

/-- `open`: the path is set once the directory exists; `disk` is the file found there. -/
def openIn (directory : Text) (created : Bool) (disk : Option Text) : Outcome EpochLedger :=
  if directory = [] then fail .invalidArgument "epoch ledger directory is empty"
  else if ¬created then fail .ioFailure "unable to create the epoch ledger directory"
  else .ok { path := directory ++ ascii "/coordinator.epoch", file := disk }

/-- `load`: a missing file is an absent epoch; a damaged one is an error. -/
def load (ledger : EpochLedger) (readable : Bool) : Outcome EpochId :=
  if ledger.path = [] then fail .invalidArgument "epoch ledger is not open"
  else
    match ledger.file with
    | none => .ok ⟨0⟩
    | some content =>
      if ¬readable then fail .ioFailure "unable to read the epoch ledger"
      else if (content.take 18).length ≠ 18 then
        fail .truncatedInput "epoch ledger is truncated"
      else decodeLedger (content.take 18)

def store (ledger : EpochLedger) (epoch : EpochId) (fault : Option AtomicWriteFault) :
    Status × EpochLedger :=
  if ledger.path = [] then (.ok (), ledger)
  else if ¬epoch.valid then
    (fail .invalidArgument "refusing to persist an absent epoch", ledger)
  else
    let (status, file) := writeFileAtomic ledger.file (encodeLedger epoch) fault
    (status, { ledger with file })

/-- The file of the ledger holds an epoch. -/
def holds (ledger : EpochLedger) (epoch : EpochId) : Prop :=
  ledger.file = some (encodeLedger epoch)

instance (ledger : EpochLedger) (epoch : EpochId) : Decidable (ledger.holds epoch) := by
  delta holds; infer_instance

@[simp] theorem encodeLedger_length (epoch : EpochId) : (encodeLedger epoch).length = 18 := by
  simp [encodeLedger, ledgerBody]

theorem ledgerBody_length (epoch : EpochId) : (ledgerBody epoch).length = 14 := by
  simp [ledgerBody]

theorem decodeLedger_encodeLedger (epoch : EpochId) :
    decodeLedger (encodeLedger epoch) = .ok epoch := by
  have htake : (encodeLedger epoch).take 14 = ledgerBody epoch :=
    List.take_left' (ledgerBody_length epoch)
  have hbytes : encodeLedger epoch = writeU32 kLeaseLedgerMagic ++
      (writeU16 kSnapshotFormatVersion ++
        (writeU64 epoch.value ++ (writeU32 (crc32c (ledgerBody epoch)) ++ []))) := by
    simp [encodeLedger, ledgerBody]
  unfold decodeLedger
  rw [htake, hbytes]
  simp only [readU32_writeU32, readU16_writeU16, readU64_writeU64, ne_eq, not_true_eq_false,
    if_false, bind, Except.bind]
  rfl

/-- A load returns the epoch the file holds. -/
theorem load_of_holds {ledger : EpochLedger} {epoch : EpochId} (hp : ledger.path ≠ [])
    (h : ledger.holds epoch) : ledger.load true = .ok epoch := by
  have htake : (encodeLedger epoch).take 18 = encodeLedger epoch :=
    List.take_of_length_le (encodeLedger_length epoch).le
  unfold load
  rw [if_neg hp, h]
  simp only [htake, encodeLedger_length, ne_eq, not_true_eq_false, if_false]
  exact decodeLedger_encodeLedger epoch

/-- A failure of `fail` has the code it was given. -/
theorem fail_code {α : Type} {code : ErrorCode} {detail : String} {error : Error}
    (h : (fail code detail : Outcome α) = .error error) : error.code = code := by
  rw [← Except.error.inj h]

theorem decodeLedger_error {buffer : Text} {error : Error}
    (h : decodeLedger buffer = .error error) : error.code ≠ .notFound := by
  unfold decodeLedger at h
  cases h₁ : readU32 buffer with
  | error e => simp only [h₁] at h; simp [fail_code h]
  | ok magic =>
    simp only [h₁] at h
    split_ifs at h
    · simp [fail_code h]
    cases h₂ : readU16 magic.2 with
    | error e => simp only [h₂] at h; simp [fail_code h]
    | ok version =>
      simp only [h₂] at h
      split_ifs at h
      · simp [fail_code h]
      cases h₃ : readU64 version.2 with
      | error e =>
        simp only [h₃, bind, Except.bind] at h
        simp [← Except.error.inj h, readU64_error h₃]
      | ok epoch =>
        simp only [h₃, bind, Except.bind] at h
        cases h₄ : readU32 epoch.2 with
        | error e =>
          simp only [h₄] at h
          simp [← Except.error.inj h, readU32_error h₄]
        | ok checksum =>
          simp only [h₄] at h
          split_ifs at h
          · simp [fail_code h]
          · cases h

/-- A load never reports a missing file as an error. -/
theorem load_error {ledger : EpochLedger} {readable : Bool} {error : Error}
    (h : ledger.load readable = .error error) : error.code ≠ .notFound := by
  unfold load at h
  by_cases hp : ledger.path = []
  · rw [if_pos hp] at h
    simp [fail_code h]
  rw [if_neg hp] at h
  cases hf : ledger.file with
  | none =>
    simp only [hf] at h
    cases h
  | some content =>
    simp only [hf] at h
    by_cases hr : readable
    · rw [if_neg (not_not.mpr hr)] at h
      split_ifs at h
      · simp [fail_code h]
      · exact decodeLedger_error h
    · rw [if_pos hr] at h
      simp [fail_code h]

/-- The file of a ledger holds at most one epoch. -/
theorem holds_unique {ledger : EpochLedger} {a b : EpochId} (ha : ledger.holds a)
    (hb : ledger.holds b) : a = b := by
  have he : encodeLedger a = encodeLedger b := Option.some.inj (ha.symm.trans hb)
  have hd := decodeLedger_encodeLedger a
  rw [he, decodeLedger_encodeLedger] at hd
  exact (Except.ok.inj hd).symm

@[simp] theorem store_path (ledger : EpochLedger) (epoch : EpochId)
    (fault : Option AtomicWriteFault) : (ledger.store epoch fault).2.path = ledger.path := by
  unfold store
  split_ifs <;> rfl

/-- A successful store of an open ledger publishes the epoch; a failed one leaves the
file. -/
theorem store_spec (ledger : EpochLedger) (epoch : EpochId) (fault : Option AtomicWriteFault)
    (hp : ledger.path ≠ []) :
    ((ledger.store epoch fault).1 = .ok () ∧ epoch.valid ∧
        (ledger.store epoch fault).2.holds epoch) ∨
      ((ledger.store epoch fault).1 ≠ .ok () ∧ (ledger.store epoch fault).2 = ledger) := by
  unfold store
  rw [if_neg hp]
  by_cases hv : epoch.valid
  · rw [if_neg (not_not.mpr hv)]
    cases fault with
    | none => exact Or.inl ⟨rfl, hv, rfl⟩
    | some fault => exact Or.inr ⟨nofun, rfl⟩
  · rw [if_pos hv]
    exact Or.inr ⟨nofun, rfl⟩

end EpochLedger

end IncastGovernor
