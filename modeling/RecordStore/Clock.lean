/-! # The clock

Records are stamped with wall time in milliseconds. The wall clock may be set to any time, also backwards or
before its epoch; a reading before the epoch counts as the epoch. -/

namespace RecordStore

/-- The wall clock, in milliseconds since its epoch. -/
structure Clock where
  wall : Int

namespace Clock

/-- The reading that stamps records. -/
def now (c : Clock) : UInt64 := UInt64.ofNat c.wall.toNat

def set (_ : Clock) (ms : Int) : Clock := ⟨ms⟩

/-- The clock after `ms` milliseconds, or set back by so many if the number is negative. -/
def advance (c : Clock) (ms : Int) : Clock := ⟨c.wall + ms⟩

end Clock

end RecordStore
