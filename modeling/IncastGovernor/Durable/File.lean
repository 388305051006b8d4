import IncastGovernor.Core.Primitives

/-! Files as byte strings, with the ways a write can fail. An atomic write goes to a
temporary file that replaces the target by a rename: it leaves the old content or
publishes the new one. -/

namespace IncastGovernor

/-- The step of an atomic write that fails. -/
inductive AtomicWriteFault where
  | create | shortWrite | flush | sync | close | rename
  deriving DecidableEq

def AtomicWriteFault.toError : AtomicWriteFault → Error
  | .create => ⟨.ioFailure, ascii "unable to create the temporary file"⟩
  | .shortWrite => ⟨.ioFailure, ascii "short write to the temporary file"⟩
  | .flush => ⟨.ioFailure, ascii "failed to flush the file buffer"⟩
  | .sync => ⟨.ioFailure, ascii "failed to fsync the file"⟩
  | .close => ⟨.ioFailure, ascii "failed to close the temporary file"⟩
  | .rename => ⟨.ioFailure, ascii "failed to publish the file atomically"⟩

/-- `write_file_atomic` over the content of the target, with the file it leaves. -/
def writeFileAtomic (target : Option Text) (content : Text) (fault : Option AtomicWriteFault) :
    Status × Option Text :=
  match fault with
  | none => (.ok (), some content)
  | some fault => (.error fault.toError, target)

/-- A file by what a crash may do to it: the synced bytes outlive it, of the bytes written
behind them some prefix gets through. -/
structure DurableFile where
  synced : Text := []
  cached : Text := []
  deriving DecidableEq

namespace DurableFile

def content (file : DurableFile) : Text := file.synced ++ file.cached

def write (file : DurableFile) (bytes : Text) : DurableFile :=
  { file with cached := file.cached ++ bytes }

def sync (file : DurableFile) : DurableFile := { synced := file.content }

def crash (file : DurableFile) (keep : ℕ) : DurableFile :=
  { synced := file.synced ++ file.cached.take keep }

@[simp] theorem write_content (file : DurableFile) (bytes : Text) :
    (file.write bytes).content = file.content ++ bytes := (List.append_assoc _ _ _).symm

@[simp] theorem sync_content (file : DurableFile) : file.sync.content = file.content :=
  List.append_nil _

theorem crash_content (file : DurableFile) (keep : ℕ) :
    (file.crash keep).content = file.synced ++ file.cached.take keep := List.append_nil _

/-- What a crash left, another one leaves. -/
@[simp] theorem crash_crash (file : DurableFile) (keep again : ℕ) :
    (file.crash keep).crash again = file.crash keep := by
  simp [crash]

/-- A synced file has nothing to lose. -/
theorem crash_sync_content (file : DurableFile) (keep : ℕ) :
    (file.sync.crash keep).content = file.content := by
  rw [crash_content, sync, List.take_nil, List.append_nil]

/-- A crash after a write leaves what a crash before it leaves, or the file with some
prefix of what was written. -/
theorem crash_write (file : DurableFile) (bytes : Text) (keep : ℕ) :
    ((file.write bytes).crash keep).content = (file.crash keep).content ∨
      ∃ k, ((file.write bytes).crash keep).content = file.content ++ bytes.take k := by
  rw [crash_content, crash_content, write, List.take_append]
  rcases Nat.le_total keep file.cached.length with hle | hle
  · refine Or.inl ?_
    rw [Nat.sub_eq_zero_of_le hle, List.take_zero, List.append_nil]
  · refine Or.inr ⟨keep - file.cached.length, ?_⟩
    rw [List.take_of_length_le hle, content, List.append_assoc]

end DurableFile

/-- The faults that only a synced write can meet. -/
def AtomicWriteFault.ofSync (fault : AtomicWriteFault) : Prop := fault = .flush ∨ fault = .sync

instance (fault : AtomicWriteFault) : Decidable fault.ofSync := by
  delta AtomicWriteFault.ofSync; infer_instance

/-- `write_file_atomic` to a file of a directory: the file it publishes. -/
def publishFile (content : Text) (fsync : Bool) (fault : Option AtomicWriteFault) :
    Outcome DurableFile :=
  match fault.filter fun fault => fsync = true ∨ ¬fault.ofSync with
  | some fault => .error fault.toError
  | none => .ok (if fsync then { synced := content } else { cached := content })

/-- The step of an append that fails, with the bytes that got to the file. -/
inductive AppendFault where
  | openFile
  | shortWrite (count : ℕ)
  | flush (count : ℕ)
  | sync
  | close

/-- The open, write, sync and close of `append`, with the file they leave: an open for
append creates a file that is not there. -/
def appendFile (target : Option DurableFile) (record : Text) (fsync : Bool)
    (fault : Option AppendFault) : Status × Option DurableFile :=
  let file := target.getD {}
  let written := file.write record
  let done := if fsync then written.sync else written
  match fault with
  | none => (.ok (), some done)
  | some .openFile => (fail .ioFailure "unable to open the journal for append", target)
  | some (.shortWrite count) =>
    (fail .ioFailure "short write to the journal", some (file.write (record.take count)))
  | some (.flush count) =>
    (if fsync then fail .ioFailure "failed to flush the file buffer"
      else fail .ioFailure "failed to flush the journal", some (file.write (record.take count)))
  | some .sync =>
    if fsync then (fail .ioFailure "failed to fsync the file", some written)
    else (.ok (), some written)
  | some .close => (fail .ioFailure "failed to close the journal", some done)

end IncastGovernor
