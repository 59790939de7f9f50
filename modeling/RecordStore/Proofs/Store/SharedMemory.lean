import RecordStore.Proofs.Segment.KeepingRoom
import RecordStore.Proofs.Store.Parts

/-! # Segments among meddlers

Segments share a memory, and others may use it too: they write to blocks that are not theirs, resize them or give them
back, and any call may be made to fail. Between any two requests all of this may happen, and also between a look at a
segment and the evictions that it finds due. No table fills up for it, and the entries stay counted. -/

namespace RecordStore

open RecordStore.Action

/-- What others do to a memory: calls of their own, on any block, and faults that they plan for the calls to come. -/
inductive Memory.Meddling
  | allocate (size : Nat)
  | reallocate (h : Handle) (size : Nat)
  | release (h : Handle)
  | write (h : Handle) (offset : Nat) (data : Bytes)
  | plan (faults : Faults)

def Memory.Meddling.run : Meddling → Memory → Memory
  | allocate size => Action.final (Memory.allocate size)
  | reallocate h size => Action.final (Memory.reallocate h size)
  | release h => Action.final (Memory.release h)
  | write h offset data => Action.final (Memory.write h offset data)
  | plan faults => fun m => { m with faults }

theorem Memory.Meddling.run_grows (x : Meddling) (m : Memory) : m.Grows (x.run m) := by
  cases x with
  | allocate size => exact ((Memory.allocate_yields m size).mono (fun _ _ h => h.1) fun _ _ h => h.1).final
  | reallocate h size => exact ((Memory.reallocate_yields m h size).mono (fun _ _ h => h.1) fun _ _ h => h.1).final
  | release h => exact (Memory.tame_release h).moves m
  | write h offset data => exact (Memory.tame_write h offset data).moves m
  | plan faults => exact Nat.le_refl _

theorem Segment.drop_eq (t : Segment.State) : Segment.drop t = (Action.final Segment.destroy t).toShared := by
  unfold Segment.drop Action.final
  cases Segment.destroy t with
  | ok _ u => rfl
  | error _ u => rfl

namespace Store

variable {s : Store} {g : Segment} {i : Nat}

/-- What happens around segments: a request to one of them, the end of one, and what others do to what the segments
    share. The counters are theirs alone. -/
inductive Turn
  | ask (i : Nat) (q : Segment.Request)
  /-- An eviction that an earlier look has found due. -/
  | evict (i : Nat) (key : Value)
  | drop (i : Nat)
  | meddle (x : Memory.Meddling)
  | listen (notifier : Notifier)

def Turn.run : Turn → Store → Store
  | ask i q, s =>
    match s.segment? i with
    | some g => s.update i (q.run (s.part g))
    | none => s
  | evict i key, s =>
    match s.segment? i with
    | some g => s.update i (Action.final (Segment.evict key) (s.part g))
    | none => s
  | drop i, s =>
    match s.segment? i with
    | some g => { s with toShared := Segment.drop (s.part g), slots := s.slots.setIfInBounds i none }
    | none => s
  | meddle x, s => { s with memory := x.run s.memory }
  | listen notifier, s => { s with notifier }

/-- The store after some turns, one after the other. -/
def turns (xs : List Turn) (s : Store) : Store := xs.foldl (fun s x => x.run s) s

/-- The null handle has been passed, and no segment has been used yet. -/
structure Fresh (s : Store) : Prop where
  started : s.memory.Started
  created : ∀ i g, s.segment? i = some g → ∃ capacity, Segment.create capacity = .ok g

/-- Every segment has room in its table, and no request to it fails for want of room, or because an entry is taken off
    a count that is zero. -/
structure Spacious (s : Store) : Prop where
  roomy : ∀ i g, s.segment? i = some g → g.Roomy
  benign : ∀ i g, s.segment? i = some g → ∀ (q : Segment.Request) (e : Failure),
    q.failure? (s.part g) = some e → e.Benign
  evicts : ∀ i g, s.segment? i = some g → ∀ (k : Value) (e : Failure),
    Action.failure? (Segment.evict k) (s.part g) = some e → e.Benign

/-- The entries that the segments count together are counted for the store. -/
structure Safe (s : Store) : Prop where
  started : s.memory.Started
  roomy : ∀ i g, s.segment? i = some g → g.Roomy
  items : ((held s.slots).map Segment.count).sum ≤ s.counters.items

namespace Safe

theorem part (hs : s.Safe) (hi : s.segment? i = some g) :
    (s.part g).Safe ((s.rest i).map Segment.count).sum where
  started := hs.started
  roomy := hs.roomy i g hi
  items := by
    have hitems := hs.items
    rw [← held_clear (show occupant? s.slots i = some g from hi), Multiset.map_cons, Multiset.sum_cons] at hitems
    exact hitems

theorem update {u : Segment.State} (hs : s.Safe) (hi : s.segment? i = some g)
    (hu : u.Safe ((s.rest i).map Segment.count).sum) : (s.update i u).Safe where
  started := hu.started
  roomy j g' hj := by
    rw [segment?_update hi] at hj
    split at hj
    · cases hj
      exact hu.roomy
    · exact hs.roomy j g' hj
  items := by
    rw [held_update hi, Multiset.map_cons, Multiset.sum_cons]
    exact hu.items

theorem dropped (hs : s.Safe) (hi : s.segment? i = some g) :
    Safe { s with toShared := Segment.drop (s.part g), slots := s.slots.setIfInBounds i none } := by
  have hu := (Segment.destroy_safely.run (hs.part hi)).1
  refine ⟨?_, fun j g' hj => ?_, ?_⟩
  · show (Segment.drop (s.part g)).memory.Started
    rw [Segment.drop_eq]
    exact hu.started
  · obtain ⟨k, -, hk⟩ := (mem_rest hi).mp (mem_held.mpr ⟨j, hj⟩)
    exact hs.roomy k g' hk
  · have hitems := hu.items
    show ((s.rest i).map Segment.count).sum ≤ (Segment.drop (s.part g)).counters.items
    rw [Segment.drop_eq]
    omega

theorem spacious (hs : s.Safe) : s.Spacious where
  roomy := hs.roomy
  benign _ _ hi q := (q.run_safely (hs.part hi)).2
  evicts _ _ hi k := ((Segment.evict_safely k).run (hs.part hi)).2

end Safe

theorem Fresh.safe (hs : s.Fresh) : s.Safe where
  started := hs.started
  roomy i g hi := by
    obtain ⟨capacity, hg⟩ := hs.created i g hi
    obtain ⟨hcapacity, rfl⟩ := Segment.of_create hg
    exact Segment.roomy_empty hcapacity
  items := by
    have hzero : ((held s.slots).map Segment.count).sum = 0 := by
      refine Multiset.sum_eq_zero fun n hn => ?_
      obtain ⟨g, hg, rfl⟩ := Multiset.mem_map.mp hn
      obtain ⟨i, hi⟩ := mem_held.mp hg
      obtain ⟨capacity, hcreate⟩ := hs.created i g hi
      obtain ⟨-, rfl⟩ := Segment.of_create hcreate
      rfl
    omega

theorem Turn.run_safe (x : Turn) (hs : s.Safe) : (x.run s).Safe := by
  cases x with
  | ask i q =>
    rw [run]
    cases hi : s.segment? i with
    | none => exact hs
    | some g => exact hs.update hi (q.run_safely (hs.part hi)).1
  | evict i key =>
    rw [run]
    cases hi : s.segment? i with
    | none => exact hs
    | some g => exact hs.update hi ((Segment.evict_safely key).run (hs.part hi)).1
  | drop i =>
    rw [run]
    cases hi : s.segment? i with
    | none => exact hs
    | some g => exact hs.dropped hi
  | meddle x => exact ⟨hs.started.grows (x.run_grows s.memory), hs.roomy, hs.items⟩
  | listen notifier => exact ⟨hs.started, hs.roomy, hs.items⟩

theorem turns_safe (hs : s.Safe) (xs : List Turn) : (turns xs s).Safe := by
  induction xs generalizing s with
  | nil => exact hs
  | cons x xs ih => exact ih (x.run_safe hs)

/-- Whatever fails and whoever meddles, tables keep room, searches end, and no count goes below zero. -/
theorem spacious_of_turns (hs : s.Fresh) (xs : List Turn) : (turns xs s).Spacious := (turns_safe hs.safe xs).spacious

/-- Two records have one key, one of them loses its bytes, and giving back the other one fails. -/
theorem spacious_of_corruption :
    (turns [.ask 0 (.put (.bool true) ⟨[1, 0, 1, 1], 0, 5, .null⟩),
        .ask 0 (.put (.bool false) ⟨[1, 0, 1, 1], 0, 5, .null⟩), .meddle (.reallocate ⟨1⟩ 3),
        .meddle (.plan { release := [0] }), .ask 0 (.remove (.bool true)), .ask 0 .destroy,
        .ask 0 (.put (.bool true) ⟨[1, 0, 1, 1], 0, 5, .null⟩), .drop 1]
      ⟨⟨.empty, {}, .silent "", ⟨0⟩⟩, ⟨"Entry", []⟩, #[some (Segment.empty 2), some (Segment.empty 4)], 2, 0, 0,
        0⟩).Spacious := by
  refine spacious_of_turns ?_ _
  refine ⟨Nat.zero_lt_one, fun i g hi => ?_⟩
  have hmem : g ∈ held #[some (Segment.empty 2), some (Segment.empty 4)] := mem_held.mpr ⟨i, hi⟩
  simp only [held, List.filterMap_cons, List.filterMap_nil, id_eq, Multiset.mem_coe, List.mem_cons, List.not_mem_nil,
    or_false] at hmem
  rcases hmem with rfl | rfl
  · exact ⟨2, rfl⟩
  · exact ⟨4, rfl⟩

end Store

end RecordStore
