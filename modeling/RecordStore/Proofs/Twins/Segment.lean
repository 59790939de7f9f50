import RecordStore.Proofs.Twins.Memory
import RecordStore.Segment.Lookup
import RecordStore.Segment.Teardown

/-! # Twin segments

Two segments with the same slots taken, by twin handles into twin memories, do the same at every request: which slot an
entry lies in is told by its key alone, and the figures that are kept for the record are never read. -/

namespace RecordStore

open RecordStore.Action

namespace Counters

/-- The counters with other figures for the record: the evictions, and the rehash that fell due last. -/
def marked (c : Counters) (expired : Nat) (rehash? : Option Rehash) : Counters := { c with expired, rehash? }

/-- The same counts and limits. -/
def Alike (c c' : Counters) : Prop := ∃ expired rehash?, c' = c.marked expired rehash?

variable (c : Counters) (expired : Nat) (rehash? : Option Rehash)

theorem reserveBytes_marked (n : Nat) :
    (c.marked expired rehash?).reserveBytes n = (c.reserveBytes n).map (·.marked expired rehash?) := by
  simp only [reserveBytes, marked]
  cases c.maxBytes? with
  | none => rfl
  | some max =>
    dsimp only
    rw [apply_ite (Except.map _)]
    rfl

theorem reserveInsert_marked (n : Nat) : (c.marked expired rehash?).reserveInsert n =
    (c.reserveInsert n).map (Prod.map id (·.marked expired rehash?)) := by
  have hrest : (do
        let d ← (c.marked expired rehash?).reserveBytes n
        return (d.items + 1, { d with items := d.items + 1 }) : Except LimitFault (Nat × Counters)) =
      (do
        let d ← c.reserveBytes n
        return (d.items + 1, { d with items := d.items + 1 }) : Except LimitFault (Nat × Counters)).map
          (Prod.map id (·.marked expired rehash?)) := by
    rw [reserveBytes_marked]
    cases c.reserveBytes n <;> rfl
  unfold reserveInsert
  rw [show (c.marked expired rehash?).maxItems? = c.maxItems? from rfl]
  cases c.maxItems? with
  | none => exact hrest
  | some max =>
    dsimp only
    rw [show (c.marked expired rehash?).items = c.items from rfl]
    split
    · rfl
    · exact hrest

theorem reserveReplace_marked (old new : Nat) :
    (c.marked expired rehash?).reserveReplace old new = (c.reserveReplace old new).map (·.marked expired rehash?) := by
  unfold reserveReplace
  split
  · exact c.reserveBytes_marked expired rehash? (new - old)
  · rfl

end Counters

namespace Counters.Alike

variable {c c' : Counters}

theorem cancelInsert (hc : c.Alike c') (n : Nat) : (c.cancelInsert n).Alike (c'.cancelInsert n) := by
  obtain ⟨expired, rehash?, rfl⟩ := hc
  exact ⟨expired, rehash?, rfl⟩

theorem cancelReplace (hc : c.Alike c') (old new : Nat) : (c.cancelReplace old new).Alike (c'.cancelReplace old new) := by
  obtain ⟨expired, rehash?, rfl⟩ := hc
  unfold Counters.cancelReplace
  split <;> exact ⟨expired, rehash?, rfl⟩

theorem insertCommitted (hc : c.Alike c') (items : Nat) : (c.insertCommitted items).Alike (c'.insertCommitted items) := by
  obtain ⟨expired, rehash?, rfl⟩ := hc
  unfold Counters.insertCommitted
  rw [show (c.marked expired rehash?).thresholds? = c.thresholds? from rfl]
  cases c.thresholds? with
  | none => exact ⟨expired, rehash?, rfl⟩
  | some t =>
    dsimp only
    split
    · exact ⟨expired, some .grow, rfl⟩
    · exact ⟨expired, rehash?, rfl⟩

theorem entryExpired (hc : c.Alike c') : c.entryExpired.Alike c'.entryExpired := by
  obtain ⟨expired, rehash?, rfl⟩ := hc
  exact ⟨expired + 1, rehash?, rfl⟩

theorem entryRemoved_inStep (n : Nat) : InStep Alike Eq (Counters.entryRemoved n) (Counters.entryRemoved n) := by
  rintro c _ ⟨expired, rehash?, rfl⟩
  simp only [Counters.entryRemoved, marked]
  cases c.items with
  | zero => exact .error rfl ⟨expired, rehash?, rfl⟩
  | succ items =>
    cases c.thresholds? with
    | none => exact .ok rfl ⟨expired, rehash?, rfl⟩
    | some t =>
      dsimp only
      split
      · exact .ok rfl ⟨expired, some .shrink, rfl⟩
      · exact .ok rfl ⟨expired, rehash?, rfl⟩

end Counters.Alike

variable {p p' : Nat} {h h' : Handle}

/-- What twin segments share: twin memories, the same counts, the same listener and the same time. -/
structure Shared.Twins (p p' : Nat) (s s' : Shared) : Prop where
  memory : s.memory.Twins p p' s'.memory
  counters : s.counters.Alike s'.counters
  notifier : s.notifier = s'.notifier
  clock : s.clock = s'.clock

namespace Segment

/-- Two tables whose handles are twins. -/
structure Twins (p p' : Nat) (g g' : Segment) : Prop where
  slots : Matched (Handle.Twin p p') g.slots g'.slots
  count : g.count = g'.count
  minCapacity : g.minCapacity = g'.minCapacity

namespace Twins

variable {g g' : Segment}

theorem capacity (hg : Twins p p' g g') : g.capacity = g'.capacity := hg.slots.size_eq

theorem next (hg : Twins p p' g g') (i : Nat) : g.next i = g'.next i := congrArg ((i + 1) % ·) hg.capacity

theorem mustGrow (hg : Twins p p' g g') : g.mustGrow = g'.mustGrow := by
  rw [Segment.mustGrow, Segment.mustGrow, hg.capacity, hg.count]

theorem mustShrink (hg : Twins p p' g g') : g.mustShrink = g'.mustShrink := by
  rw [Segment.mustShrink, Segment.mustShrink, hg.capacity, hg.count, hg.minCapacity]

theorem summary (hg : Twins p p' g g') : g.summary = g'.summary := by
  unfold Segment.summary
  rw [hg.capacity, hg.count]

theorem setSlot {h? h?' : Option Handle} (hg : Twins p p' g g') (i : Nat) (hh : Option.Rel (Handle.Twin p p') h? h?') :
    Twins p p' (g.setSlot i h?) (g'.setSlot i h?') :=
  ⟨hg.slots.setIfInBounds i hh, hg.count, hg.minCapacity⟩

theorem empty (capacity : Nat) : Twins p p' (empty capacity) (empty capacity) := ⟨.replicate capacity, rfl, rfl⟩

end Twins

theorem freeSlot?_eq {slots slots' : Array (Option Handle)} (hs : Matched (Handle.Twin p p') slots slots') (k : Value) :
    freeSlot? slots k = freeSlot? slots' k := by
  unfold freeSlot?
  rw [show isFree slots = isFree slots' from funext hs.isNone_eq, hs.size_eq]

/-- Twin segments, with all that they share. -/
structure State.Twins (p p' : Nat) (t t' : State) : Prop where
  shared : t.toShared.Twins p p' t'.toShared
  segment : t.segment.Twins p p' t'.segment

/-! ### Parts of the state -/

section Parts
variable {α α' : Type} {A : α → α' → Prop}

theorem onMemory_inStep {x : Action Memory α} {x' : Action Memory α'} (hx : InStep (Memory.Twins p p') A x x') :
    InStep (State.Twins p p') A (onMemory x) (onMemory x') :=
  hx.on (fun _ _ ht => ht.shared.memory) fun _ _ _ _ ht hm => ⟨{ ht.shared with memory := hm }, ht.segment⟩

theorem onNotifier_inStep (x : Action Notifier α) : InStep (State.Twins p p') Eq (onNotifier x) (onNotifier x) :=
  (InStep.refl x).on (fun _ _ ht => ht.shared.notifier) fun _ _ _ _ ht hn =>
    ⟨{ ht.shared with notifier := hn }, ht.segment⟩

theorem onCounters_inStep {x : Action Counters α} {x' : Action Counters α'} (hx : InStep Counters.Alike A x x') :
    InStep (State.Twins p p') A (onCounters x) (onCounters x') :=
  hx.on (fun _ _ ht => ht.shared.counters) fun _ _ _ _ ht hc => ⟨{ ht.shared with counters := hc }, ht.segment⟩

theorem modifySegment_inStep {f f' : Segment → Segment} (hf : ∀ g g', Twins p p' g g' → Twins p p' (f g) (f' g')) :
    InStep (State.Twins p p') Eq (modifySegment f) (modifySegment f') :=
  fun _ _ ht => .ok rfl ⟨ht.shared, hf _ _ ht.segment⟩

theorem modifyCounters_inStep {f : Counters → Counters} (hf : ∀ c c', c.Alike c' → (f c).Alike (f c')) :
    InStep (State.Twins p p') Eq (modifyCounters f) (modifyCounters f) :=
  fun _ _ ht => .ok rfl ⟨{ ht.shared with counters := hf _ _ ht.shared.counters }, ht.segment⟩

theorem now_inStep : InStep (State.Twins p p') Eq now now := fun _ _ ht => .ok (congrArg Clock.now ht.shared.clock) ht

theorem get_inStep : InStep (State.Twins p p') (State.Twins p p') (get : Op State) (get : Op State) :=
  fun _ _ ht => .ok ht ht

theorem slotAt_inStep (i : Nat) : InStep (State.Twins p p') (Option.Rel (Handle.Twin p p')) (slotAt i) (slotAt i) :=
  fun _ _ ht => .ok (ht.segment.slots.occupant? i) ht

theorem nextSlot_inStep (i : Nat) : InStep (State.Twins p p') Eq (nextSlot i) (nextSlot i) :=
  fun _ _ ht => .ok (ht.segment.next i) ht

theorem currentHandles_inStep :
    InStep (State.Twins p p') (List.Forall₂ (Handle.Twin p p')) currentHandles currentHandles :=
  fun _ _ ht => .ok ht.segment.slots.contents ht

end Parts

/-! ### Probing -/

theorem keyAt_inStep (hh : h.Twin p p' h') : InStep (State.Twins p p') Eq (keyAt h) (keyAt h') :=
  (onMemory_inStep (Record.payloadAt_inStep hh)).bind_same fun _ => .ofCodec _

/-- Two searches have ended in the same slot. -/
inductive Probe.Twin (p p' : Nat) : Probe → Probe → Prop
  | found {g g' : Handle} (i : Nat) (hg : g.Twin p p' g') : Twin p p' (.found i g) (.found i g')
  | absent (i : Nat) : Twin p p' (.absent i) (.absent i)

theorem probeFrom_inStep (k : Value) (steps i : Nat) :
    InStep (State.Twins p p') (Probe.Twin p p') (probeFrom k steps i) (probeFrom k steps i) := by
  induction steps generalizing i with
  | zero => exact fun t t' ht => .error (congrArg (Failure.abort ∘ Abort.noEmptySlot) ht.segment.capacity) ht
  | succ steps ih =>
    refine (slotAt_inStep i).bind fun h? h?' hh => ?_
    cases hh with
    | none => exact .pure (.absent i)
    | some hh =>
      refine (keyAt_inStep hh).bind_same fun k' => ?_
      split
      · exact .pure (.found i hh)
      · exact (nextSlot_inStep i).bind_same ih

theorem probe_inStep (k : Value) : InStep (State.Twins p p') (Probe.Twin p p') (probe k) (probe k) := by
  intro t t' ht
  unfold probe
  rw [← ht.segment.capacity]
  exact probeFrom_inStep k _ _ t t' ht

/-! ### Placing -/

theorem place_inStep (k : Value) (hh : h.Twin p p' h') : InStep (State.Twins p p') Eq (place k h) (place k h') := by
  intro t t' ht
  unfold place
  rw [← freeSlot?_eq ht.segment.slots k, ← ht.segment.capacity]
  cases freeSlot? t.segment.slots k with
  | none => exact .error rfl ht
  | some i => exact .ok rfl ⟨ht.shared, ht.segment.setSlot i (.some hh)⟩

theorem placeAll_inStep {hs hs' : List Handle} {slots slots' : Array (Option Handle)}
    (hhs : List.Forall₂ (Handle.Twin p p') hs hs') (hslots : Matched (Handle.Twin p p') slots slots') :
    InStep (State.Twins p p') (Matched (Handle.Twin p p')) (placeAll hs slots) (placeAll hs' slots') := by
  induction hhs generalizing slots slots' with
  | nil => exact .pure hslots
  | cons hh _ ih =>
    refine (keyAt_inStep hh).bind_same fun k => ?_
    rw [← freeSlot?_eq hslots k]
    cases freeSlot? slots k with
    | none =>
      dsimp only
      rw [hslots.size_eq]
      exact .abort _
    | some i => exact ih (hslots.setIfInBounds i (.some hh))

theorem resize_inStep (capacity : Nat) : InStep (State.Twins p p') Eq (resize capacity) (resize capacity) :=
  currentHandles_inStep.bind fun _ _ hhs => (placeAll_inStep hhs (.replicate capacity)).bind fun _ _ hslots =>
    modifySegment_inStep fun _ _ hg => ⟨hslots, hg.count, hg.minCapacity⟩

theorem backShiftFrom_inStep (steps i : Nat) :
    InStep (State.Twins p p') Eq (backShiftFrom steps i) (backShiftFrom steps i) := by
  induction steps generalizing i with
  | zero => exact fun t t' ht => .error (congrArg (Failure.abort ∘ Abort.noEmptySlot) ht.segment.capacity) ht
  | succ steps ih =>
    refine (slotAt_inStep i).bind fun h? h?' hh => ?_
    cases hh with
    | none => exact .pure rfl
    | some hh =>
      refine (keyAt_inStep hh).bind_same fun k => ?_
      refine (modifySegment_inStep fun _ _ hg => hg.setSlot i .none).bind_same fun _ => ?_
      exact (place_inStep k hh).bind_same fun _ => (nextSlot_inStep i).bind_same ih

theorem backShift_inStep (vacated : Nat) : InStep (State.Twins p p') Eq (backShift vacated) (backShift vacated) := by
  intro t t' ht
  unfold backShift
  rw [← ht.segment.capacity, ← ht.segment.next]
  exact backShiftFrom_inStep _ _ t t' ht

/-! ### Storing -/

theorem reserve_inStep {α : Type} (payload : Bytes) {f : Counters → Except LimitFault (α × Counters)}
    (hf : ∀ c expired rehash?, f (c.marked expired rehash?) =
      (f c).map (Prod.map id (·.marked expired rehash?))) :
    InStep (State.Twins p p') Eq (reserve payload f) (reserve payload f) := by
  intro t t' ht
  obtain ⟨expired, rehash?, hc⟩ := ht.shared.counters
  unfold reserve
  rw [hc, hf]
  cases f t.counters with
  | error reason => exact .error rfl ht
  | ok r => exact .ok rfl ⟨{ ht.shared with counters := ⟨expired, rehash?, rfl⟩ }, ht.segment⟩

theorem insert_inStep (k : Value) (r : Record) : InStep (State.Twins p p') Eq (insert k r) (insert k r) := by
  have hstore : InStep (State.Twins p p') Eq
      (do let r ← onMemory r.store
          place k r.handle
          modifySegment fun s => { s with count := s.count + 1 } : Op Unit)
      (do let r ← onMemory r.store
          place k r.handle
          modifySegment fun s => { s with count := s.count + 1 } : Op Unit) :=
    (onMemory_inStep (Record.store_inStep r)).bind fun _ _ hr => (place_inStep k hr.handle).bind_same fun _ =>
      modifySegment_inStep fun _ _ hg => ⟨hg.slots, congrArg (· + 1) hg.count, hg.minCapacity⟩
  refine get_inStep.bind fun t t' ht => ?_
  dsimp only
  rw [← ht.segment.mustGrow, ← ht.segment.capacity]
  split
  · exact (resize_inStep _).bind_same fun _ => hstore
  · exact hstore

theorem overwrite_inStep (i : Nat) (hh : h.Twin p p' h') (previous : Nat) (r : Record) :
    InStep (State.Twins p p') Eq (overwrite i h previous r) (overwrite i h' previous r) := by
  refine (reserve_inStep r.payload fun c expired rehash? => ?_).bind_same fun _ => ?_
  · rw [Counters.reserveReplace_marked]
    cases c.reserveReplace previous r.size <;> rfl
  refine (onMemory_inStep (Record.storeOver_inStep hh r)).attempt.bind fun result result' hresult => ?_
  cases hresult with
  | ok hr => exact (modifySegment_inStep fun _ _ hg => hg.setSlot i (.some hr.handle)).bind_same fun _ => .pure rfl
  | error he => exact (modifyCounters_inStep fun _ _ hc => hc.cancelReplace previous r.size).bind_same fun _ => .fail he

theorem put_inStep (k : Value) (r : Record) : InStep (State.Twins p p') Eq (put k r) (put k r) := by
  refine (probe_inStep k).bind fun found found' hfound => ?_
  cases hfound with
  | found i hh =>
    exact (onMemory_inStep (Record.sizeAt_inStep hh)).bind_same fun previous => overwrite_inStep i hh previous r
  | absent i =>
    refine (reserve_inStep r.payload fun c => c.reserveInsert_marked (n := r.size)).bind_same fun items => ?_
    refine (insert_inStep k r).attempt.bind fun result result' hresult => ?_
    cases hresult with
    | ok _ => exact (modifyCounters_inStep fun _ _ hc => hc.insertCommitted items).bind_same fun _ => .pure rfl
    | error he => exact (modifyCounters_inStep fun _ _ hc => hc.cancelInsert r.size).bind_same fun _ => .fail he

/-! ### Removing -/

theorem removeAt_inStep (i : Nat) (hh : h.Twin p p' h') :
    InStep (State.Twins p p') Eq (removeAt i h) (removeAt i h') := by
  refine (onMemory_inStep (Record.sizeAt_inStep hh)).bind_same fun freed => ?_
  refine (onMemory_inStep (Record.ttlAt_inStep hh)).bind_same fun ttl => ?_
  refine (onMemory_inStep (Memory.release_inStep hh)).bind_same fun _ => ?_
  refine (modifySegment_inStep fun g g' hg => ?_).bind_same fun _ => ?_
  · exact ⟨(hg.setSlot i .none).slots, congrArg (· - 1) hg.count, hg.minCapacity⟩
  refine (onCounters_inStep (Counters.Alike.entryRemoved_inStep freed)).bind_same fun _ => ?_
  refine (backShift_inStep i).bind_same fun _ => get_inStep.bind fun t t' ht => ?_
  dsimp only
  rw [← ht.segment.mustShrink, ← ht.segment.capacity]
  split
  · exact (resize_inStep _).bind_same fun _ => .pure rfl
  · exact .pure rfl

theorem remove_inStep (k : Value) : InStep (State.Twins p p') Eq (remove k) (remove k) := by
  refine (probe_inStep k).bind fun found found' hfound => ?_
  cases hfound with
  | found i hh => exact (removeAt_inStep i hh).bind_same fun _ => .pure rfl
  | absent i => exact .pure rfl

/-! ### Evicting -/

theorem evict_inStep (k : Value) : InStep (State.Twins p p') Eq (evict k) (evict k) := by
  refine (probe_inStep k).bind fun found found' hfound => ?_
  cases hfound with
  | absent i => exact .pure rfl
  | found i hh =>
    refine now_inStep.bind_same fun now => (onMemory_inStep (Record.isOverAt_inStep hh now)).bind_same fun isOver => ?_
    cases isOver with
    | false => exact .pure rfl
    | true =>
      refine (onMemory_inStep (Record.payloadAt_inStep hh)).bind_same fun payload => ?_
      refine (removeAt_inStep i hh).bind_same fun removed => ?_
      dsimp only
      split
      · exact .pure rfl
      · refine (modifyCounters_inStep fun _ _ hc => hc.entryExpired).bind_same fun _ => ?_
        exact (onNotifier_inStep _).bind_same fun _ => .pure rfl

theorem evictAll_inStep (keys : List Value) (evicted : Nat) :
    InStep (State.Twins p p') Eq (evictAll keys evicted) (evictAll keys evicted) := by
  induction keys generalizing evicted with
  | nil => exact .pure rfl
  | cons k keys ih =>
    refine (evict_inStep k).bind_same fun gone => ?_
    cases gone with
    | true => exact ih (evicted + 1)
    | false => exact ih evicted

theorem overdueKeys_inStep (now : UInt64) {hs hs' : List Handle} (hhs : List.Forall₂ (Handle.Twin p p') hs hs')
    (keys : List Value) : InStep (State.Twins p p') Eq (overdueKeys now hs keys) (overdueKeys now hs' keys) := by
  induction hhs generalizing keys with
  | nil => exact .pure rfl
  | cons hh _ ih =>
    refine (onMemory_inStep (Record.isOverAt_inStep hh now)).bind_same fun isOver => ?_
    cases isOver with
    | true => exact (keyAt_inStep hh).bind_same fun k => ih (k :: keys)
    | false => exact ih keys

theorem evictExpired_inStep : InStep (State.Twins p p') Eq evictExpired evictExpired :=
  now_inStep.bind_same fun now => currentHandles_inStep.bind fun _ _ hhs =>
    (overdueKeys_inStep now hhs []).bind_same fun keys => evictAll_inStep keys 0

/-! ### Finding -/

theorem contains_inStep (k : Value) : InStep (State.Twins p p') Eq (contains k) (contains k) := by
  refine (probe_inStep k).bind fun found found' hfound => ?_
  cases hfound with
  | absent i => exact .pure rfl
  | found i hh =>
    refine now_inStep.bind_same fun now => (onMemory_inStep (Record.isOverAt_inStep hh now)).bind_same fun isOver => ?_
    cases isOver with
    | true => exact (evict_inStep k).bind_same fun _ => .pure rfl
    | false => exact .pure rfl

theorem getRecord?_inStep (k : Value) :
    InStep (State.Twins p p') (Option.Rel (Record.Twin p p')) (getRecord? k) (getRecord? k) := by
  refine (probe_inStep k).bind fun found found' hfound => ?_
  cases hfound with
  | absent i => exact .pure .none
  | found i hh =>
    refine (onMemory_inStep (Record.load_inStep hh)).bind fun r r' hr => now_inStep.bind_same fun now => ?_
    rw [show r.isOver now = r'.isOver now by rw [Record.isOver, Record.isOver, hr.ttl, hr.createdAt]]
    split
    · exact (evict_inStep k).bind_same fun _ => .pure .none
    · exact .pure (.some hr)

theorem get?_inStep (k : Value) : InStep (State.Twins p p') Eq (get? k) (get? k) := by
  refine (getRecord?_inStep k).bind fun r? r?' hr => ?_
  cases hr with
  | none => exact .pure rfl
  | some hr => exact .pure (congrArg some hr.payload)

theorem scan_inStep (tm : Template) (now : UInt64) {hs hs' : List Handle}
    (hhs : List.Forall₂ (Handle.Twin p p') hs hs') (matched : List Bytes) (overdue : List Value) :
    InStep (State.Twins p p') Eq (scan tm now hs matched overdue) (scan tm now hs' matched overdue) := by
  induction hhs generalizing matched overdue with
  | nil => exact .pure rfl
  | cons hh _ ih =>
    refine (onMemory_inStep (Record.load_inStep hh)).bind fun r r' hr => ?_
    rw [show r.isOver now = r'.isOver now by rw [Record.isOver, Record.isOver, hr.ttl, hr.createdAt], hr.payload]
    split
    · exact (InStep.ofCodec _).bind_same fun k => ih matched (k :: overdue)
    · refine (InStep.ofCodec _).bind_same fun matches? => ?_
      cases matches? with
      | true => exact ih (r'.payload :: matched) overdue
      | false => exact ih matched overdue

theorem matching_inStep (tm : Template) : InStep (State.Twins p p') Eq (matching tm) (matching tm) :=
  now_inStep.bind_same fun now => currentHandles_inStep.bind fun _ _ hhs =>
    (scan_inStep tm now hhs [] []).bind_same fun _ => (evictAll_inStep _ 0).bind_same fun _ => .pure rfl

/-! ### Tearing down -/

/-- What is left to do for a record whose size was read. -/
theorem release_counted_inStep (hh : h.Twin p p' h') (freed : Nat) :
    InStep (State.Twins p p') (Option.Rel fun e e' => e.unnamed = e'.unnamed)
      (do let failure? := match ← Action.attempt (onMemory (Memory.release h)) with
            | .ok () => none
            | .error e => some e
          onCounters (Counters.entryRemoved freed)
          return failure? : Op (Option Error))
      (do let failure? := match ← Action.attempt (onMemory (Memory.release h')) with
            | .ok () => none
            | .error e => some e
          onCounters (Counters.entryRemoved freed)
          return failure? : Op (Option Error)) := by
  refine (onMemory_inStep (Memory.release_inStep hh)).attempt.bind fun result result' hresult => ?_
  refine (onCounters_inStep (Counters.Alike.entryRemoved_inStep freed)).bind_same fun _ => .pure ?_
  cases hresult with
  | ok _ => exact .none
  | error he => exact .some he

theorem discard_inStep (hh : h.Twin p p' h') : InStep (State.Twins p p')
    (Option.Rel fun e e' => e.unnamed = e'.unnamed) (discard h) (discard h') := by
  refine (onMemory_inStep (Record.sizeAt_inStep hh)).attempt.bind fun size size' hsize => ?_
  cases hsize with
  | ok hn => exact hn ▸ release_counted_inStep hh _
  | error _ => exact release_counted_inStep hh 0

theorem discardAll_inStep {hs hs' : List Handle} (hhs : List.Forall₂ (Handle.Twin p p') hs hs')
    {failure? failure?' : Option Error} (hfailure : Option.Rel (fun e e' => e.unnamed = e'.unnamed) failure? failure?') :
    InStep (State.Twins p p') (Option.Rel fun e e' => e.unnamed = e'.unnamed) (discardAll hs failure?)
      (discardAll hs' failure?') := by
  induction hhs generalizing failure? failure?' with
  | nil => exact .pure hfailure
  | cons hh _ ih =>
    refine (discard_inStep hh).bind fun e? e?' he => ?_
    cases he with
    | none => exact ih hfailure
    | some he => exact ih (.some he)

theorem destroy_inStep : InStep (State.Twins p p') Eq destroy destroy := by
  refine currentHandles_inStep.bind fun _ _ hhs => (discardAll_inStep hhs .none).bind fun e? e?' he => ?_
  refine (modifySegment_inStep fun g g' hg => hg.minCapacity ▸ Twins.empty g.minCapacity).bind_same fun _ => ?_
  cases he with
  | none => exact .pure rfl
  | some he => exact .fail he

end Segment

end RecordStore
