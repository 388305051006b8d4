import IncastGovernor.Mitigate.Floor
import IncastGovernor.Governor.Recovery
import IncastGovernor.Governor.Onset
import IncastGovernor.Governor.Targets
import IncastGovernor.Governor.Soundness
import IncastGovernor.Governor.Refusals
import IncastGovernor.Governor.Replay
import IncastGovernor.Governor.Restore
import IncastGovernor.Governor.Expiry
import IncastGovernor.Governor.Representation
import IncastGovernor.Governor.Bounds
import IncastGovernor.Durable.TornTail
import IncastGovernor.Durable.Checkpoint
import IncastGovernor.Durable.Reachable
import IncastGovernor.Coordinator.Fencing
import IncastGovernor.Coordinator.Restart
import IncastGovernor.Coordinator.Publishing
import IncastGovernor.Coordinator.Interference
import IncastGovernor.Coordinator.MessageCodec
import IncastGovernor.Transport.Channel
import IncastGovernor.Governor.Terminal
import IncastGovernor.Governor.Dwell
import IncastGovernor.Governor.Digest
import IncastGovernor.Governor.Bindings
import IncastGovernor.Governor.Reporting
import IncastGovernor.Governor.Generations
import IncastGovernor.Mitigate.Sizing
import IncastGovernor.Core.Locality
import IncastGovernor.Durable.Strictness
import IncastGovernor.Governor.Transitions
import IncastGovernor.Coordinator.Atomicity
import IncastGovernor.Governor.Recency
import IncastGovernor.Coordinator.Sessions
import IncastGovernor.Core.Checksum
import IncastGovernor.Durable.Damage
import IncastGovernor.Durable.Capacity
import IncastGovernor.Detect.Queues
import IncastGovernor.Detect.Ranking
import IncastGovernor.Detect.Synchrony
import IncastGovernor.Detect.SameEvidence
import IncastGovernor.Mitigate.Rearranged
import IncastGovernor.Foundation.Descent
import IncastGovernor.Governor.Relaxation
import IncastGovernor.Mitigate.Shape
import IncastGovernor.Governor.Oversubscription
import IncastGovernor.Detect.Authoritative
import IncastGovernor.Governor.Accounting
import IncastGovernor.Governor.Classified
import IncastGovernor.Core.Checked
import IncastGovernor.Core.BitSerial
import IncastGovernor.Durable.Bursts
import IncastGovernor.Governor.Instants
import IncastGovernor.Foundation.JsonText
import IncastGovernor.Foundation.JsonSize
import IncastGovernor.Governor.Rendering
import IncastGovernor.Governor.JsonDocument
import IncastGovernor.Governor.Legible
import IncastGovernor.Governor.Budget
import IncastGovernor.Worker.Client
import IncastGovernor.Worker.Deployment
import IncastGovernor.Worker.Exchange
import IncastGovernor.Worker.Settling
import IncastGovernor.Worker.Agreement
import IncastGovernor.Worker.Rules
import IncastGovernor.Worker.Coherence
import IncastGovernor.Worker.Runs
import IncastGovernor.Foundation.BoundedRun
import IncastGovernor.Worker.Fence
import IncastGovernor.Worker.Acceptance
import IncastGovernor.Worker.Succession
import IncastGovernor.Transport.Sending
import IncastGovernor.Coordinator.Shutdown
import IncastGovernor.Worker.Journalling
import IncastGovernor.Core.Minting
import IncastGovernor.Worker.Construction
