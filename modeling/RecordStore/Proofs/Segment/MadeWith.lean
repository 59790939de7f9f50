import RecordStore.Proofs.Segment.Rearranging
import RecordStore.Proofs.Segment.Visiting

/-! # What a segment was made with

Tables grow and shrink and are laid out anew, and entries are counted. Whatever is asked of a segment and whatever fails,
it remembers the number of slots that it was made with, and the limits and thresholds of the counts stay. -/

namespace RecordStore

/-- What the counters are held against. -/
def Counters.terms (c : Counters) : Option Thresholds × Option Nat × Option Nat := (c.thresholds?, c.maxBytes?, c.maxItems?)

namespace Segment

open RecordStore.Action

/-- The segment was made with as many slots, and is counted on the same terms. -/
structure Moored (t u : State) : Prop where
  minCapacity : u.segment.minCapacity = t.segment.minCapacity
  terms : u.counters.terms = t.counters.terms

instance : IsPreorder State Moored where
  refl _ := ⟨rfl, rfl⟩
  trans _ _ _ h₁ h₂ := ⟨h₂.minCapacity.trans h₁.minCapacity, h₂.terms.trans h₁.terms⟩

theorem Rearranged.moored {t u : State} (h : Rearranged t u) : Moored t u :=
  ⟨h.minCapacity, congrArg Counters.terms h.counters⟩

theorem Unwritten.moored {t u : State} (h : Unwritten t u) : Moored t u := h.rearranged.moored

/-! ### Storing and removing -/

/-- Counts of entries and bytes, and the mark that they set, are no terms. -/
theorem moored_counts (t : State) (items : Nat) (bytes : UInt64) (rehash? : Option Rehash) :
    Moored t { t with counters := { t.counters with items, bytes, rehash? } } := ⟨rfl, rfl⟩

theorem moored_entryRemoved (n : Nat) : Moves Moored (onCounters (Counters.entryRemoved n)) :=
  moves_entryRemoved moored_counts n

theorem moored_put (k : Value) (r : Record) : Moves Moored (put k r) :=
  Rearranged.moves_put Rearranged.moored moored_counts k r

theorem moored_remove (k : Value) : Moves Moored (remove k) :=
  Rearranged.moves_remove Rearranged.moored moored_entryRemoved k

theorem moored_destroy : Moves Moored destroy := Rearranged.moves_destroy Rearranged.moored moored_entryRemoved

theorem moored_evict (k : Value) : Moves Moored (evict k) := by
  refine Rearranged.moves_evict Rearranged.moored moored_entryRemoved (fun _ => ⟨rfl, rfl⟩) (fun x t => ?_) k
  rw [final_onNotifier]
  exact ⟨rfl, rfl⟩

/-! ### Finding and sweeping -/

theorem moored_contains (k : Value) : Moves Moored (contains k) :=
  Unwritten.moves_contains Unwritten.moored moored_evict k

theorem moored_getRecord? (k : Value) : Moves Moored (getRecord? k) :=
  Unwritten.moves_getRecord? Unwritten.moored moored_evict k

theorem moored_get? (k : Value) : Moves Moored (get? k) := Unwritten.moves_get? Unwritten.moored moored_evict k

theorem moored_matching (tm : Template) : Moves Moored (matching tm) :=
  Unwritten.moves_matching Unwritten.moored moored_evict tm

theorem moored_evictExpired : Moves Moored evictExpired := Unwritten.moves_evictExpired Unwritten.moored moored_evict

end Segment

end RecordStore
