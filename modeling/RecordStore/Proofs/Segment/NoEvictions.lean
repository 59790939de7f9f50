import RecordStore.Proofs.Segment.Rearranging

/-! # Operations that evict nothing

Reading records, writing them and laying a table out count nothing. Storing, removals and teardowns count entries, but
they tell nobody and count no eviction, whatever goes wrong on the way. -/

namespace RecordStore.Segment

open RecordStore.Action

/-- Nobody was told of anything, and no eviction was counted. -/
structure Silent (t u : State) : Prop where
  notifier : u.notifier = t.notifier
  expired : u.counters.expired = t.counters.expired

instance : IsPreorder State Silent where
  refl _ := ⟨rfl, rfl⟩
  trans _ _ _ h₁ h₂ := ⟨h₂.notifier.trans h₁.notifier, h₂.expired.trans h₁.expired⟩

theorem Rearranged.silent {t u : State} (h : Rearranged t u) : Silent t u :=
  ⟨h.notifier, congrArg Counters.expired h.counters⟩

theorem silent_put (k : Value) (r : Record) : Moves Silent (put k r) :=
  Rearranged.moves_put Rearranged.silent (fun _ _ _ _ => ⟨rfl, rfl⟩) k r

theorem silent_entryRemoved (n : Nat) : Moves Silent (onCounters (Counters.entryRemoved n)) :=
  moves_entryRemoved (fun _ _ _ _ => ⟨rfl, rfl⟩) n

theorem silent_removeAt (i : Nat) (h : Handle) : Moves Silent (removeAt i h) :=
  Rearranged.moves_removeAt Rearranged.silent silent_entryRemoved i h

theorem silent_remove (k : Value) : Moves Silent (remove k) :=
  Rearranged.moves_remove Rearranged.silent silent_entryRemoved k

theorem silent_destroy : Moves Silent destroy := Rearranged.moves_destroy Rearranged.silent silent_entryRemoved

end RecordStore.Segment
