import IncastGovernor.Core.Primitives

/-! Strongly typed identities, generations, epochs and boot incarnations. The zero
value of every identity is the reserved absent value. A tag keeps the identity of
one entity family from being taken for another's. -/

namespace IncastGovernor

inductive IdTag where
  | destination | sender | flow | resource | queue | window | policy | intervention | event
  | provenance | lease | worker | group

@[ext] structure StrongId (tag : IdTag) where
  value : UInt64 := 0
  deriving DecidableEq

namespace StrongId

variable {tag : IdTag}

def valid (id : StrongId tag) : Prop := id.value ≠ 0

instance (id : StrongId tag) : Decidable id.valid := inferInstanceAs (Decidable (id.value ≠ 0))

instance : LawfulBEq (StrongId tag) := inferInstance

instance : LT (StrongId tag) := ⟨fun a b => a.value < b.value⟩

instance (a b : StrongId tag) : Decidable (a < b) := inferInstanceAs (Decidable (a.value < b.value))

end StrongId

abbrev DestinationId := StrongId .destination
abbrev SenderId := StrongId .sender
abbrev FlowId := StrongId .flow
abbrev ResourceId := StrongId .resource
abbrev QueueId := StrongId .queue
abbrev WindowId := StrongId .window
abbrev PolicyId := StrongId .policy
abbrev InterventionId := StrongId .intervention
abbrev EventId := StrongId .event
abbrev ProvenanceId := StrongId .provenance
abbrev LeaseId := StrongId .lease
abbrev WorkerId := StrongId .worker

/-- A revision of one entity family; larger is newer. -/
structure Generation (tag : IdTag) where
  value : UInt64 := 0
  deriving DecidableEq

namespace Generation

variable {tag : IdTag}

def valid (g : Generation tag) : Prop := g.value ≠ 0

instance (g : Generation tag) : Decidable g.valid := inferInstanceAs (Decidable (g.value ≠ 0))

instance : LT (Generation tag) := ⟨fun a b => a.value < b.value⟩

instance (a b : Generation tag) : Decidable (a < b) :=
  inferInstanceAs (Decidable (a.value < b.value))

def next (g : Generation tag) : Generation tag := ⟨g.value + 1⟩

end Generation

abbrev EventGeneration := Generation .event
abbrev DestinationGeneration := Generation .destination
abbrev CapacityGeneration := Generation .resource
abbrev WindowGeneration := Generation .window
abbrev PolicyGeneration := Generation .policy
abbrev InterventionGeneration := Generation .intervention
abbrev ProvenanceGeneration := Generation .provenance
abbrev StateGeneration := Generation .group

/-- The coordinator epoch a piece of authority is bound to. -/
@[ext] structure EpochId where
  value : UInt64 := 0
  deriving DecidableEq

namespace EpochId

def valid (e : EpochId) : Prop := e.value ≠ 0

instance (e : EpochId) : Decidable e.valid := inferInstanceAs (Decidable (e.value ≠ 0))

instance : LE EpochId := ⟨fun a b => a.value ≤ b.value⟩

instance (a b : EpochId) : Decidable (a ≤ b) := inferInstanceAs (Decidable (a.value ≤ b.value))

instance : LT EpochId := ⟨fun a b => a.value < b.value⟩

instance (a b : EpochId) : Decidable (a < b) := inferInstanceAs (Decidable (a.value < b.value))

def next (e : EpochId) : EpochId := ⟨e.value + 1⟩

end EpochId

/-- The nonce of one process boot. -/
structure BootIncarnation where
  value : UInt64 := 0
  deriving DecidableEq

namespace BootIncarnation

def valid (b : BootIncarnation) : Prop := b.value ≠ 0

instance (b : BootIncarnation) : Decidable b.valid := inferInstanceAs (Decidable (b.value ≠ 0))

instance : LT BootIncarnation := ⟨fun a b => a.value < b.value⟩

instance (a b : BootIncarnation) : Decidable (a < b) :=
  inferInstanceAs (Decidable (a.value < b.value))

end BootIncarnation

/-- A bare sender id is no authority to penalize traffic; the incarnation and the
flow belong to the identity. -/
structure SenderIdentity where
  sender : SenderId := {}
  incarnation : BootIncarnation := {}
  flow : FlowId := {}
  deriving DecidableEq

def SenderIdentity.valid (i : SenderIdentity) : Prop := i.sender.valid ∧ i.incarnation.valid

instance (i : SenderIdentity) : Decidable i.valid :=
  inferInstanceAs (Decidable (i.sender.valid ∧ i.incarnation.valid))

inductive CollisionKind where
  | none | duplicateSenderDifferentIncarnation | contradictoryAttributes
  | flowReuseAcrossDestinations
  deriving DecidableEq

structure SenderCollision where
  sender : SenderId := {}
  kind : CollisionKind := .none
  occurrences : UInt32 := 0
  deriving DecidableEq

end IncastGovernor
