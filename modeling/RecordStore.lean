import RecordStore.Action
import RecordStore.Bytes
import RecordStore.Clock
import RecordStore.Counters
import RecordStore.Cyclic
import RecordStore.Duration
import RecordStore.Expiry.Event
import RecordStore.Expiry.Notifier
import RecordStore.Expiry.Queue
import RecordStore.Failure
import RecordStore.Handle
import RecordStore.Hash.Finalizer
import RecordStore.Hash.Sip
import RecordStore.Lifetime
import RecordStore.Main
import RecordStore.Memory
import RecordStore.Memory.Arena
import RecordStore.Memory.Faults
import RecordStore.Payload
import RecordStore.Proofs.Actions
import RecordStore.Proofs.Arena.Blocks
import RecordStore.Proofs.Arena.Calls
import RecordStore.Proofs.Arena.Histories
import RecordStore.Proofs.Arena.Ledger
import RecordStore.Proofs.Bytes
import RecordStore.Proofs.Circle
import RecordStore.Proofs.Counters
import RecordStore.Proofs.Fields
import RecordStore.Proofs.FreshHandles
import RecordStore.Proofs.Headers
import RecordStore.Proofs.InlineNotices
import RecordStore.Proofs.Keys
import RecordStore.Proofs.Layout
import RecordStore.Proofs.Lockstep
import RecordStore.Proofs.Matching
import RecordStore.Proofs.Memory
import RecordStore.Proofs.Moves
import RecordStore.Proofs.Notices
import RecordStore.Proofs.Occupants
import RecordStore.Proofs.Queueing
import RecordStore.Proofs.Reading
import RecordStore.Proofs.Recording
import RecordStore.Proofs.Releasing
import RecordStore.Proofs.Reservations
import RecordStore.Proofs.Schemas
import RecordStore.Proofs.Segment.BackShiftEnds
import RecordStore.Proofs.Segment.CapacityAndCount
import RecordStore.Proofs.Segment.Clearing
import RecordStore.Proofs.Segment.CountingDown
import RecordStore.Proofs.Segment.Edits
import RecordStore.Proofs.Segment.Evicting
import RecordStore.Proofs.Segment.FailingCalls
import RecordStore.Proofs.Segment.Finding
import RecordStore.Proofs.Segment.Gaps
import RecordStore.Proofs.Segment.HalfFull
import RecordStore.Proofs.Segment.Intact
import RecordStore.Proofs.Segment.LayingOut
import RecordStore.Proofs.Segment.LossByEviction
import RecordStore.Proofs.Segment.MadeWith
import RecordStore.Proofs.Segment.NoEvictions
import RecordStore.Proofs.Segment.Probing
import RecordStore.Proofs.Segment.Rearranging
import RecordStore.Proofs.Segment.Records
import RecordStore.Proofs.Segment.Rehoming
import RecordStore.Proofs.Segment.Removing
import RecordStore.Proofs.Segment.ResizeSpacing
import RecordStore.Proofs.Segment.Resizing
import RecordStore.Proofs.Segment.Runs
import RecordStore.Proofs.Segment.Searching
import RecordStore.Proofs.Segment.SingleEviction
import RecordStore.Proofs.Segment.Storing
import RecordStore.Proofs.Segment.Tearing
import RecordStore.Proofs.Segment.Visiting
import RecordStore.Proofs.Segment.Withdrawing
import RecordStore.Proofs.SpreadHashes
import RecordStore.Proofs.Store.Accounts
import RecordStore.Proofs.Store.Admission
import RecordStore.Proofs.Store.AllSegments
import RecordStore.Proofs.Store.Breaking
import RecordStore.Proofs.Store.Catalog
import RecordStore.Proofs.Store.Chronicle
import RecordStore.Proofs.Store.Commuting
import RecordStore.Proofs.Store.Emptying
import RecordStore.Proofs.Store.Entries
import RecordStore.Proofs.Store.Errands
import RecordStore.Proofs.Store.EvictionSequences
import RecordStore.Proofs.Store.Evictions
import RecordStore.Proofs.Store.FailingCalls
import RecordStore.Proofs.Store.FailingReleases
import RecordStore.Proofs.Store.Lasting
import RecordStore.Proofs.Store.Lifting
import RecordStore.Proofs.Store.Limits
import RecordStore.Proofs.Store.ListenerStays
import RecordStore.Proofs.Store.LossByEviction
import RecordStore.Proofs.Store.Making
import RecordStore.Proofs.Store.Mirroring
import RecordStore.Proofs.Store.PartialRemovals
import RecordStore.Proofs.Store.Parts
import RecordStore.Proofs.Store.Querying
import RecordStore.Proofs.Store.RehashFlag
import RecordStore.Proofs.Store.Requests
import RecordStore.Proofs.Store.Routing
import RecordStore.Proofs.Store.SharedMemory
import RecordStore.Proofs.Store.SparedEntries
import RecordStore.Proofs.Store.Steps
import RecordStore.Proofs.Store.Sweeping
import RecordStore.Proofs.Store.TearDown
import RecordStore.Proofs.Store.Tearing
import RecordStore.Proofs.Store.ThresholdRange
import RecordStore.Proofs.Store.Tolerance
import RecordStore.Proofs.Store.Withdrawing
import RecordStore.Proofs.Stress.Steps
import RecordStore.Proofs.Stress.Turns
import RecordStore.Proofs.SweeperWaits
import RecordStore.Proofs.Table.Chain
import RecordStore.Proofs.Table.Closing
import RecordStore.Proofs.Table.HomeDistance
import RecordStore.Proofs.Table.Levels
import RecordStore.Proofs.Table.Slots
import RecordStore.Proofs.Thresholds
import RecordStore.Proofs.Truncation
import RecordStore.Proofs.Twins.Memory
import RecordStore.Proofs.Twins.Segment
import RecordStore.Proofs.Twins.Store
import RecordStore.Record
import RecordStore.Schema
import RecordStore.Segment.Entries
import RecordStore.Segment.Eviction
import RecordStore.Segment.Lookup
import RecordStore.Segment.Probe
import RecordStore.Segment.Table
import RecordStore.Segment.Teardown
import RecordStore.Shared
import RecordStore.Store
import RecordStore.Store.Config
import RecordStore.Store.Placement
import RecordStore.Stress.Options
import RecordStore.Stress.Output
import RecordStore.Stress.Workload
import RecordStore.Sweeper
import RecordStore.Sweeper.Config
import RecordStore.Template
import RecordStore.Text.Quoted
import RecordStore.Text.Unshown
import RecordStore.Text.Utf8
import RecordStore.Value
import RecordStore.Value.Hash
