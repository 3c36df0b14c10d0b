import Kernis.Lib.Text
import Kernis.Lib.Index
import Kernis.Lib.Wire
import Kernis.Lib.Delimited
import Kernis.Lib.DepthFirst
import Kernis.Lib.ActivePath
import Kernis.Lib.Topological
import Kernis.Lib.LeastOrder
import Kernis.Lib.Fallible
import Kernis.Lib.Triple
import Kernis.Core
import Kernis.Stream
import Kernis.Workflow.Graph
import Kernis.Workflow.Edges
import Kernis.Workflow.Runs
import Kernis.Workflow.Progress
import Kernis.Workflow.Batch
import Kernis.Capability.Graph
import Kernis.Capability.Resolver
import Kernis.Capability.Scope
import Kernis.Capability.Tree
import Kernis.Capability.Steps
import Kernis.Capability.Sound
import Kernis.Capability.Admission
import Kernis.Capability.Teardown
import Kernis.Capability.Context
import Kernis.Capability.Identity
import Kernis.Capability.Fiber
import Kernis.Capability.Effects
import Kernis.Runtime.Definition
import Kernis.Runtime.Canonical
import Kernis.Runtime.Validated
import Kernis.Runtime.Identity
import Kernis.Runtime.Reordered
import Kernis.Runtime.State
import Kernis.Runtime.Operations
import Kernis.Runtime.Start
import Kernis.Runtime.Actions
import Kernis.Runtime.Decide
import Kernis.Runtime.Choices
import Kernis.Runtime.Performs
import Kernis.Runtime.LostAck
import Kernis.Runtime.Created
import Kernis.Runtime.Owned
import Kernis.Runtime.Coherent
import Kernis.Runtime.Faithful
import Kernis.Runtime.Synced
import Kernis.Runtime.Incarnations
import Kernis.Runtime.Driven
import Kernis.Runtime.Follows
import Kernis.Runtime.Described
import Kernis.Runtime.Consistent
import Kernis.Runtime.Repinned
import Kernis.Runtime.Reconstructed
import Kernis.Runtime.Restart
import Kernis.Runtime.Guarded
import Kernis.Runtime.Attempts
import Kernis.Runtime.Order
import Kernis.Runtime.Scheduler
import Kernis.Runtime.Restorable
import Kernis.Runtime.Submitted
import Kernis.Runtime.Shared
import Kernis.Runtime.Delivery
import Kernis.Runtime.Emissions
import Kernis.Recovery.Classify
import Kernis.Recovery.Model
import Kernis.Recovery.Durable
import Kernis.Recovery.Persisted
import Kernis.Recovery.Accepted
import Kernis.Recovery.Reachable
import Kernis.Recovery.Lineage
import Kernis.Recovery.Ledger
import Kernis.Recovery.Reflected
import Kernis.Recovery.Journal
import Kernis.Recovery.Physical
import Kernis.Recovery.Corruption
import Kernis.Recovery.ExactlyOnce
import Kernis.Driver.RuntimeDriver
import Kernis.Driver.Mailbox
import Kernis.Driver.InOrder
import Kernis.Driver.Handover
import Kernis.Driver.Shutdown
import Kernis.Driver.Protocol
import Kernis.Driver.Resolves
import Kernis.Driver.Phases
import Kernis.Runtime.LiveIdentity
import Kernis.Runtime.EffectStates
import Kernis.Runtime.Fence
import Kernis.Runtime.Recancel
import Kernis.Composition.Module
import Kernis.Composition.Plan
import Kernis.Composition.Planned
import Kernis.Composition.ModuleOrder
import Kernis.Loader.Catalog
import Kernis.Loader.Reference
import Kernis.Loader.Resolve
import Kernis.Loader.Shortest
import Kernis.Loader.Cycles
import Kernis.Loader.Exact
import Kernis.Loader.Agree
import Kernis.Composition.Cleanup
import Kernis.Composition.Release
import Kernis.Capability.Attended
import Kernis.Composition.Activation
import Kernis.Composition.Rollback
import Kernis.Composition.Slots
import Kernis.Composition.Moves
import Kernis.Capability.Started
import Kernis.Capability.Whole
import Kernis.Capability.Owns
import Kernis.Capability.Disposal
import Kernis.Lib.Dependents
import Kernis.Capability.Reactive
import Kernis.Capability.Handled
import Kernis.Capability.Coordinated
import Kernis.Capability.Withdrawal
import Kernis.Composition.Fares
import Kernis.Composition.Active
import Kernis.Capability.Standing
import Kernis.Runtime.Constructs
import Kernis.Capability.Undisturbed
import Kernis.Composition.Blameless
import Kernis.Workflow.CyclePath
import Kernis.Stream.Accounting
import Kernis.Stream.Coalescing
import Kernis.Capability.EffectNesting
import Kernis.Capability.Reconcile
import Kernis.Capability.Serial
import Kernis.Capability.Converges
import Kernis.Lib.Settling
import Kernis.Capability.Drives
import Kernis.Capability.Settles
import Kernis.Capability.Registry
import Kernis.Capability.Final
import Kernis.Capability.Removal
import Kernis.Runtime.Finishing
import Kernis.Runtime.Host
import Kernis.Recovery.History
import Kernis.Capability.Accounts
