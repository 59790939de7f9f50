import RecordStore.Failure

/-! # The pace of the sweeper

The wait between two sweeps is halved after one that expires a large share of the entries and doubled after one
that expires none, within bounds; after one that finds the store empty it stays as it is. -/

namespace RecordStore

/-- How long the sweeper waits, and what makes it wait less or longer. -/
structure SweeperConfig where
  /-- The wait before the first sweep. -/
  baseInterval : Duration := .ofMillis 100
  /-- The wait is not cut below this. -/
  minInterval : Duration := .ofMillis 10
  /-- The wait is not drawn out beyond this. -/
  maxInterval : Duration := .ofMillis 1000
  /-- A sweep that expires a larger share of the entries is followed sooner by the next. -/
  speedup : Float := 0.25
  /-- A sweep that expires nothing, and so a smaller share than this, is followed later by the next. -/
  slowdown : Float := 0.01

namespace SweeperConfig

/-- Whether a number is between 0 and 1; what is no number is not. -/
def isFraction (x : Float) : Bool := 0 ≤ x && x ≤ 1

/-- The first rule that the configuration breaks, if any. The first wait is free. -/
def validate (c : SweeperConfig) : Except ConfigFault Unit :=
  if c.minInterval.nanoseconds = 0 ∨ ¬ c.minInterval ≤ c.maxInterval then .error .sweeperIntervals
  else if !isFraction c.speedup || !isFraction c.slowdown then .error .sweeperThresholds
  else .ok ()

/-- The wait after a sweep that expired `expired` of `entries` entries. -/
def nextInterval (c : SweeperConfig) (current : Duration) (entries expired : Nat) : Duration :=
  if entries = 0 then current
  else
    let rate := Float.ofNat expired / Float.ofNat entries
    if c.speedup < rate then current.half.max c.minInterval
    else if rate < c.slowdown && expired = 0 then current.double.min c.maxInterval
    else current

end SweeperConfig

end RecordStore
