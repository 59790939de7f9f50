import RecordStore.Clock
import RecordStore.Counters
import RecordStore.Expiry.Notifier
import RecordStore.Record

/-! # What segments share

All segments of a store use one memory, one set of counters, one notifier and one clock. -/

namespace RecordStore

/-- The parts of a store that all its segments work on. -/
structure Shared where
  memory : Memory
  counters : Counters
  notifier : Notifier
  clock : Clock

/-- Stands in for what is in use elsewhere. -/
def Shared.vacant : Shared := ⟨.empty, {}, .silent "", ⟨0⟩⟩

end RecordStore
