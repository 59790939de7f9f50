import RecordStore.Store
import RecordStore.Sweeper.Config

/-! # The sweeper

Entries that nobody asks for are evicted by sweeps in the background. After each sweep the wait for the next one
is set by what the sweep expired; after a sweep that fails it stays as it is. -/

namespace RecordStore

/-- One sweep, as it is noted. -/
structure Sweep where
  time : Int
  /-- The entries there were before it. -/
  entries : Nat

/-- A store with a sweeper. -/
structure SweptStore where
  store : Store
  config : SweeperConfig
  /-- The present wait. -/
  interval : Duration
  /-- When the sweeper wakes next, if it was not stopped. -/
  wakes? : Option Int
  /-- The sweeps so far, the last one first. -/
  sweeps : List Sweep := []

namespace SweptStore

/-- Begins to sweep a store. With nothing to wait for, the first sweep comes as soon as any time passes, at the
time of the start. -/
def start (store : Store) (config : SweeperConfig) : Except Failure SweptStore :=
  match config.validate with
  | .error fault => .error (.error (.invalidConfig fault))
  | .ok () => .ok
    { store, config, interval := config.baseInterval
      wakes? := some (store.clock.wall + config.baseInterval.ticks) }

def stop (s : SweptStore) : SweptStore := { s with wakes? := none }

def setClock (s : SweptStore) (time : Int) : SweptStore :=
  { s with store := { s.store with clock := s.store.clock.set time } }

def sweep (s : SweptStore) : SweptStore :=
  let entries := s.store.size
  let sweeps := ⟨s.store.clock.wall, entries⟩ :: s.sweeps
  match Store.evictExpired s.store with
  | .ok expired store => { s with store, sweeps, interval := s.config.nextInterval s.interval entries expired }
  | .error _ store => { s with store, sweeps }

/-- When the sweeper wakes after a sweep at the present time, made when there were `entries` entries. Without a wait
the next sweep follows in the same tick while sweeps take entries away; one that takes none away would come out the
same there, so the clock moves on. -/
def nextWake (s : SweptStore) (entries : Nat) : Int :=
  let now := s.store.clock.wall
  if s.interval.ticks = 0 then
    if s.store.size < entries then now else now + 1
  else now + s.interval.ticks

/-- Sweeps whenever the sweeper wakes, up to a time and up to `wakes` times. -/
def sweepUntil (time : Int) : (wakes : Nat) → SweptStore → SweptStore
  | 0, s => s
  | wakes + 1, s =>
    match s.wakes? with
    | none => s
    | some due =>
      if due ≤ time then
        let swept := (s.setClock due).sweep
        sweepUntil time wakes { swept with wakes? := some (swept.nextWake s.store.size) }
      else s

/-- Lets the ticks of a span pass. From one wake of the sweeper to the next, time goes on or an entry goes away, so
there are at most as many wakes as entries and ticks. -/
def sleep (s : SweptStore) (span : Duration) : SweptStore :=
  let time := s.store.clock.wall + span.ticks
  (sweepUntil time (s.store.size + span.ticks + 1) s).setClock time

end SweptStore

end RecordStore
