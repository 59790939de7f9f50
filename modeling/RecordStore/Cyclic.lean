/-! # Search round a circle

Slots are searched from a starting place forward, and from the first one on after the last. -/

namespace RecordStore.Cyclic

/-- The first of `steps` places from `i` on, round a circle of `n`, that satisfies `p`. -/
@[specialize] def findFrom? (n : Nat) (p : Nat → Bool) : (steps i : Nat) → Option Nat
  | 0, _ => none
  | steps + 1, i => if p i then some i else findFrom? n p steps ((i + 1) % n)

/-- The first place at or after `i`, round a circle of `n`, that satisfies `p`. -/
@[inline] def find? (n : Nat) (p : Nat → Bool) (i : Nat) : Option Nat := findFrom? n p n i

end RecordStore.Cyclic
