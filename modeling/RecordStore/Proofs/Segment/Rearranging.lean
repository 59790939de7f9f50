import RecordStore.Proofs.Counters
import RecordStore.Proofs.Reading
import RecordStore.Segment.Entries
import RecordStore.Segment.Teardown

/-! # Parts of operations

What an operation of a segment may do is what its parts may do: reads of records, calls of the memory, changes of slots,
counts of entries and what a listener is told. Each operation that changes entries is gone through here once, for any
relation between states that its parts keep. -/

namespace RecordStore.Segment

open RecordStore.Action

variable {α : Type} {R : State → State → Prop} [IsPreorder State R]

/-! ### Slots -/

section Slots
variable (hslot : ∀ i h?, Moves R (modifySegment (·.setSlot i h?)))
include hslot

theorem moves_place (k : Value) (h : Handle) : Moves R (place k h) := by
  intro t
  unfold final place
  cases freeSlot? t.segment.slots k with
  | none => exact refl t
  | some i => exact hslot i (some h) t

theorem moves_backShift (hR : ∀ {t u}, Unwritten t u → R t u) (vacated : Nat) : Moves R (backShift vacated) := by
  have hread {β : Type} {x : Op β} (hx : Moves Unwritten x) : Moves R x := hx.mono fun _ _ => hR
  have hfrom (steps i : Nat) : Moves R (backShiftFrom steps i) := by
    induction steps generalizing i with
    | zero => exact fun t => refl t
    | succ steps ih =>
      refine (hread (tame_slotAt i).moves).bind fun h? => ?_
      cases h? with
      | none => exact Moves.pure _
      | some h =>
        refine (hread (tame_keyAt h).moves).bind fun k => ?_
        refine (hslot i none).bind fun _ => (moves_place hslot k h).bind fun _ => ?_
        exact (hread (tame_nextSlot i).moves).bind fun j => ih j
  exact fun t => hfrom _ _ t

end Slots

/-! ### The table and the memory -/

/-- Nobody was told of anything, nothing was counted, and the segment was made with as many slots. -/
structure Rearranged (t u : State) : Prop where
  notifier : u.notifier = t.notifier
  counters : u.counters = t.counters
  minCapacity : u.segment.minCapacity = t.segment.minCapacity

instance : IsPreorder State Rearranged where
  refl _ := ⟨rfl, rfl, rfl⟩
  trans _ _ _ h₁ h₂ := ⟨h₂.notifier.trans h₁.notifier, h₂.counters.trans h₁.counters, h₂.minCapacity.trans h₁.minCapacity⟩

theorem Unwritten.rearranged {t u : State} (h : Unwritten t u) : Rearranged t u := by
  obtain ⟨m, -, rfl⟩ := h
  exact ⟨rfl, rfl, rfl⟩

theorem rearranged_of_unwritten {x : Op α} (h : Moves Unwritten x) : Moves Rearranged x :=
  h.mono fun _ _ => Unwritten.rearranged

theorem rearranged_onMemory (x : Action Memory α) : Moves Rearranged (onMemory x) := fun t => by
  rw [final_onMemory]
  exact ⟨rfl, rfl, rfl⟩

theorem rearranged_modifySegment {f : Segment → Segment} (hf : ∀ s, (f s).minCapacity = s.minCapacity) :
    Moves Rearranged (modifySegment f) := fun t => ⟨rfl, rfl, hf t.segment⟩

theorem rearranged_get : Moves Rearranged (get : Op State) := fun t => refl t

theorem rearranged_place (k : Value) (h : Handle) : Moves Rearranged (place k h) :=
  moves_place (fun _ _ => rearranged_modifySegment fun _ => rfl) k h

theorem rearranged_backShift (vacated : Nat) : Moves Rearranged (backShift vacated) :=
  moves_backShift (fun _ _ => rearranged_modifySegment fun _ => rfl) Unwritten.rearranged vacated

theorem rearranged_resize (capacity : Nat) : Moves Rearranged (resize capacity) :=
  (rearranged_of_unwritten tame_currentHandles.moves).bind fun handles =>
    (rearranged_of_unwritten (moves_placeAll handles _)).bind fun _ => rearranged_modifySegment fun _ => rfl

theorem rearranged_insert (k : Value) (r : Record) : Moves Rearranged (insert k r) := by
  have hstore : Moves Rearranged (do
      let r ← onMemory r.store
      place k r.handle
      modifySegment fun s => { s with count := s.count + 1 } : Op Unit) :=
    (rearranged_onMemory _).bind fun r => (rearranged_place k r.handle).bind fun _ => rearranged_modifySegment fun _ => rfl
  refine rearranged_get.bind fun t => ?_
  dsimp only
  split
  · exact (rearranged_resize _).bind fun _ => hstore
  · exact hstore

/-! ### Storing -/

/-- Room is reserved as the counters have it, or nothing changes. -/
theorem moves_reserve {payload : Bytes} {f : Counters → Except LimitFault (α × Counters)}
    (hf : ∀ t a c, f t.counters = .ok (a, c) → R t { t with counters := c }) : Moves R (reserve payload f) := by
  intro t
  cases h : f t.counters with
  | ok r =>
    have hrun : reserve payload f t = .ok r.1 { t with counters := r.2 } := by simp only [reserve, h]
    rw [final_ok hrun]
    exact hf t r.1 r.2 h
  | error reason =>
    have hrun : reserve payload f t = .error (.error (.capacityExceeded reason payload)) t := by
      simp only [reserve, h]
    rw [final_error hrun]
    exact refl t

omit [IsPreorder State R] in
/-- The count of an entry that goes changes nothing of the counters but entries, bytes and the mark. -/
theorem moves_entryRemoved (hcounts : ∀ (t : State) items bytes rehash?,
      R t { t with counters := { t.counters with items, bytes, rehash? } }) (n : Nat) :
    Moves R (onCounters (Counters.entryRemoved n)) := by
  intro t
  rcases Counters.entryRemoved_cases t.counters n with ⟨-, hrun⟩ | ⟨-, rehash?, hrun, -⟩
  · rw [final_error (onCounters_error hrun)]
    exact hcounts t t.counters.items _ t.counters.rehash?
  · rw [final_ok (onCounters_ok hrun)]
    exact hcounts t _ _ rehash?

section Operations
variable (hR : ∀ {t u}, Rearranged t u → R t u)
include hR

/-- A replacement is weighed anew, and counts no entry. -/
theorem Rearranged.moves_overwrite (hbytes : ∀ (t : State) bytes, R t { t with counters := { t.counters with bytes } }) (i : Nat)
    (old : Handle) (previous : Nat) (r : Record) : Moves R (overwrite i old previous r) := by
  have hquiet {β : Type} {x : Op β} (hx : Moves Rearranged x) : Moves R x := hx.mono fun _ _ => hR
  refine Moves.bind (moves_reserve fun t a c h => ?_) fun _ =>
    (hquiet (rearranged_onMemory _)).attempt.bind fun result => ?_
  · rcases Counters.reserveReplace_cases t.counters previous r.size with ⟨reason, hres, -⟩ | ⟨bytes, hres, -⟩
    · rw [hres] at h
      cases h
    · rw [hres] at h
      cases h
      exact hbytes t bytes
  · cases result with
    | ok r => exact Moves.bind (hquiet (rearranged_modifySegment fun _ => rfl)) fun _ => Moves.pure _
    | error e =>
      refine Moves.bind (fun t => ?_) fun _ => Moves.throw _
      obtain ⟨bytes, hc, -⟩ := Counters.cancelReplace_eq t.counters previous r.size
      show R t { t with counters := t.counters.cancelReplace previous r.size }
      rw [hc]
      exact hbytes t bytes

/-- A put changes nothing of the counters but entries, bytes and the mark. -/
theorem Rearranged.moves_put (hcounts : ∀ (t : State) items bytes rehash?,
      R t { t with counters := { t.counters with items, bytes, rehash? } }) (k : Value) (r : Record) :
    Moves R (put k r) := by
  have hquiet {β : Type} {x : Op β} (hx : Moves Rearranged x) : Moves R x := hx.mono fun _ _ => hR
  refine (hquiet (rearranged_of_unwritten (moves_probe k))).bind fun found => ?_
  cases found with
  | found i old =>
    refine (hquiet (rearranged_onMemory _)).bind fun previous => ?_
    exact moves_overwrite hR (fun t bytes => hcounts t t.counters.items bytes t.counters.rehash?) i old previous r
  | absent i =>
    refine Moves.bind (moves_reserve fun t a c h => ?_) fun items =>
      (hquiet (rearranged_insert k r)).attempt.bind fun result => ?_
    · rcases Counters.reserveInsert_cases t.counters r.size with ⟨reason, hres, -⟩ | hres
      · rw [hres] at h
        cases h
      · rw [hres] at h
        cases h
        exact hcounts t _ _ t.counters.rehash?
    · cases result with
      | ok _ =>
        refine Moves.bind (fun t => ?_) fun _ => Moves.pure _
        obtain ⟨rehash?, hc⟩ := Counters.insertCommitted_eq t.counters items
        show R t { t with counters := t.counters.insertCommitted items }
        rw [hc]
        exact hcounts t t.counters.items t.counters.bytes rehash?
      | error e => exact Moves.bind (fun t => hcounts t _ _ t.counters.rehash?) fun _ => Moves.throw _

/-! ### Removing -/

section Removing
variable (hcount : ∀ n, Moves R (onCounters (Counters.entryRemoved n)))
include hcount

/-- What the count of an entry that goes may do, a removal may. -/
theorem Rearranged.moves_removeAt (i : Nat) (h : Handle) : Moves R (removeAt i h) := by
  have hquiet {β : Type} {x : Op β} (hx : Moves Rearranged x) : Moves R x := hx.mono fun _ _ => hR
  refine (hquiet (rearranged_onMemory _)).bind fun freed => (hquiet (rearranged_onMemory _)).bind fun ttl => ?_
  refine (hquiet (rearranged_onMemory _)).bind fun _ => ?_
  refine Moves.bind (hquiet (rearranged_modifySegment fun _ => rfl)) fun _ => ?_
  refine (hcount freed).bind fun _ => (hquiet (rearranged_backShift i)).bind fun _ => ?_
  refine (hquiet rearranged_get).bind fun t => ?_
  dsimp only
  split
  · exact (hquiet (rearranged_resize _)).bind fun _ => Moves.pure _
  · exact Moves.pure _

theorem Rearranged.moves_remove (k : Value) : Moves R (remove k) := by
  refine Moves.bind ((moves_probe k).mono fun _ _ h => hR h.rearranged) fun found => ?_
  cases found with
  | absent i => exact Moves.pure _
  | found i h => exact (moves_removeAt hR hcount i h).bind fun _ => Moves.pure _

theorem Rearranged.moves_discardAll (hs : List Handle) (failure? : Option Error) : Moves R (discardAll hs failure?) := by
  have hmemory {β : Type} (x : Action Memory β) : Moves R (Action.attempt (onMemory x)) :=
    ((rearranged_onMemory x).mono fun _ _ => hR).attempt
  induction hs generalizing failure? with
  | nil => exact Moves.pure _
  | cons h hs ih =>
    have hdiscard : Moves R (discard h) :=
      (hmemory _).bind fun freed => (hmemory _).bind fun _ => (hcount _).bind fun _ => Moves.pure _
    refine hdiscard.bind fun e? => ?_
    cases e? with
    | none => exact ih failure?
    | some e => exact ih (some e)

theorem Rearranged.moves_destroy : Moves R destroy := by
  have hquiet {β : Type} {x : Op β} (hx : Moves Rearranged x) : Moves R x := hx.mono fun _ _ => hR
  refine (hquiet (rearranged_of_unwritten tame_currentHandles.moves)).bind fun handles => ?_
  refine (moves_discardAll hR hcount handles none).bind fun e? => ?_
  refine Moves.bind (hquiet (rearranged_modifySegment fun _ => rfl)) fun _ => ?_
  cases e? with
  | none => exact Moves.pure _
  | some e => exact Moves.throw _

/-- An eviction is a removal that is counted once more and told to the listener. -/
theorem Rearranged.moves_evict (hexpired : Moves R (modifyCounters (·.entryExpired)))
    (hnotify : ∀ x, Moves R (onNotifier (Notifier.notify x))) (k : Value) : Moves R (evict k) := by
  have hquiet {β : Type} {x : Op β} (hx : Moves Rearranged x) : Moves R x := hx.mono fun _ _ => hR
  refine (hquiet (rearranged_of_unwritten (moves_probe k))).bind fun found => ?_
  cases found with
  | absent i => exact Moves.pure _
  | found i h =>
    refine (hquiet (rearranged_of_unwritten tame_now.moves)).bind fun time => ?_
    refine (hquiet (rearranged_onMemory _)).bind fun due => ?_
    cases due with
    | false => exact Moves.pure _
    | true =>
      refine (hquiet (rearranged_onMemory _)).bind fun payload => (moves_removeAt hR hcount i h).bind fun removed => ?_
      dsimp only
      split
      · exact Moves.pure _
      · exact hexpired.bind fun _ => (hnotify _).bind fun _ => Moves.pure _

end Removing

end Operations

end RecordStore.Segment
