import RecordStore.Segment.Table

/-! # Placement of segments

A store has more slots than segments. Each segment is put into the first free slot from a drawn place on, and each
key belongs to the segment in the first occupied slot from the place that its hash gives. -/

namespace RecordStore.Placement

/-- Slots of a store, with a segment in some of them. -/
abbrev Slots := Array (Option Segment)

def isFree (slots : Slots) (i : Nat) : Bool := slots[i]?.join.isNone

def isTaken (slots : Slots) (i : Nat) : Bool := slots[i]?.join.isSome

/-- Puts a segment into the first free slot from a drawn place on. -/
def addSegment (segment : Segment) (slots : Slots) (drawn : Nat) : Slots :=
  match Cyclic.find? slots.size (isFree slots) (drawn % slots.size) with
  | some i => slots.setIfInBounds i (some segment)
  | none => slots

/-- `count` copies of a segment over `size` slots; `draw` gives the place where the search for the slot of each
    one begins. -/
def populate (segment : Segment) (count size : Nat) (draw : Nat → Nat) : Slots :=
  (List.range count).foldl (fun slots ordinal => addSegment segment slots (draw ordinal))
    (Array.replicate size none)

/-- Draws that put the segments at equal distances. -/
def evenly (count size ordinal : Nat) : Nat := ordinal * size / count

/-- The slot whose segment a key belongs to. -/
def route? (slots : Slots) (key : Value) : Option Nat :=
  Cyclic.find? slots.size (isTaken slots) (key.hash.toNat % slots.size)

def occupied (slots : Slots) : List Nat := (List.range slots.size).filter (isTaken slots)

end RecordStore.Placement
