import RecordStore.Bytes

/-! # Durations

A span of time, exact to the nanosecond. Its whole seconds fit a word. -/

namespace RecordStore

structure Duration where
  nanoseconds : Nat
  deriving DecidableEq

namespace Duration

def ofMillis (ms : Nat) : Duration := ⟨ms * 1000000⟩

/-- The span of that many seconds and nanoseconds, if its whole seconds fit a word: the nanoseconds may make up
seconds of their own. -/
def ofSeconds? (seconds nanoseconds : Nat) : Option Duration :=
  if seconds + nanoseconds / 1000000000 < wordLimit then some ⟨seconds * 1000000000 + nanoseconds⟩ else none

def millis (d : Duration) : Nat := d.nanoseconds / 1000000

instance : LE Duration := ⟨fun a b => a.nanoseconds ≤ b.nanoseconds⟩

instance (a b : Duration) : Decidable (a ≤ b) := inferInstanceAs (Decidable (a.nanoseconds ≤ b.nanoseconds))

def half (d : Duration) : Duration := ⟨d.nanoseconds / 2⟩

def double (d : Duration) : Duration := ⟨d.nanoseconds * 2⟩

def min (a b : Duration) : Duration := if b ≤ a then b else a

def max (a b : Duration) : Duration := if a ≤ b then b else a

/-- The longest a timer waits: thirty years of 365 days. -/
def longestWait : Duration := .ofMillis (30 * 365 * 24 * 60 * 60 * 1000)

/-- The milliseconds that a timer waits when it is set to a span, a started one counted as whole. -/
def ticks (d : Duration) : Nat := ((d.min longestWait).nanoseconds + 999999) / 1000000

/-- The decimals of `rest / unit` for a power of ten `unit`, without trailing zeros. -/
def decimals (unit rest : Nat) : String :=
  let padded := (toString (unit + rest)).toList.drop 1
  match (padded.reverse.dropWhile (· = '0')).reverse with
  | [] => ""
  | digits => String.ofList ('.' :: digits)

/-- The largest unit that is not larger than the duration, with as many decimals as it needs. -/
def text (d : Duration) : String :=
  let n := d.nanoseconds
  let inUnit (unit : Nat) (name : String) := s!"{n / unit}{decimals unit (n % unit)}{name}"
  if 1000000000 ≤ n then inUnit 1000000000 "s"
  else if 1000000 ≤ n then inUnit 1000000 "ms"
  else if 1000 ≤ n then inUnit 1000 "µs"
  else inUnit 1 "ns"

end Duration

end RecordStore
