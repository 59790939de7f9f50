import RecordStore.Failure

/-! # Lifetimes

A record lives for a number of milliseconds from its stamp, or for ever. The largest word stands for "for ever",
so a lifetime that reaches it is refused instead of becoming endless. -/

namespace RecordStore

/-- A lifetime in milliseconds. -/
abbrev Lifetime := UInt32

namespace Lifetime

def forever : Lifetime := 0xFFFFFFFF

def span (seconds nanoseconds : Nat) : Except Abort Duration :=
  match Duration.ofSeconds? seconds nanoseconds with
  | some d => .ok d
  | none => .error .durationOverflow

/-- The lifetime of that many whole milliseconds; none is asked for by none. -/
def ofDuration? : Option Duration → Except ArgumentFault Lifetime
  | none => .ok forever
  | some d => if d.millis < forever.toNat then .ok (UInt32.ofNat d.millis) else .error (.lifetimeTooLong d)

/-- Whether a record stamped `createdAt` is over at `now`. The end is not rounded to a word: a record that ends
    after the last reading of the clock is never over. -/
def isOver (ttl : Lifetime) (createdAt now : UInt64) : Bool :=
  ttl ≠ forever && createdAt.toNat + ttl.toNat ≤ now.toNat

end Lifetime

end RecordStore
