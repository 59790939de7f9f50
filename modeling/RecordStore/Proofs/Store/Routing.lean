import RecordStore.Proofs.Store.Emptying

/-! # Where segments are placed and keys are routed

However the places are drawn where the searches begin, each segment finds a free slot, as long as there are no more
segments than slots. From then on each key belongs to one segment, the first one at or after the place that its hash
gives, round the circle of slots: the slots that have a segment are the same ones whatever the store goes through. -/

namespace RecordStore

namespace Placement

variable {segment : Segment} {slots : Slots} {count size n drawn i j start : Nat} {draw : Nat → Nat} {key : Value}

/-! ### Placing segments -/

theorem isFree_iff : isFree slots i = true ↔ occupant? slots i = none := Option.isNone_iff_eq_none

theorem populate_succ (segment : Segment) (n size : Nat) (draw : Nat → Nat) :
    populate segment (n + 1) size draw = addSegment segment (populate segment n size draw) (draw n) := by
  rw [populate, List.range_succ, List.foldl_append]
  rfl

theorem size_populate : (populate segment count size draw).size = size := by
  have hsize : (populate segment count size draw).size = (Array.replicate size none).size :=
    (foldl_addSegment draw (List.range count)).1
  exact hsize.trans Array.size_replicate

/-- As long as a slot is left, the search for a free one ends, and the segment is put there. -/
theorem addSegment_ends (segment : Segment) (drawn : Nat) (hroom : (held slots).card < slots.size) :
    ∃ i < slots.size, occupant? slots i = none ∧
      Cyclic.Walks slots.size (isFree slots) (drawn % slots.size) i ∧
      addSegment segment slots drawn = slots.setIfInBounds i (some segment) := by
  obtain ⟨k, hk, hfree⟩ := exists_free hroom
  have hdrawn : drawn % slots.size < slots.size := Nat.mod_lt _ (by omega)
  obtain ⟨i, hi⟩ := Cyclic.exists_find? hdrawn hk (isFree_iff.mpr hfree)
  obtain ⟨hlt, hfree', -⟩ := (Cyclic.find?_eq_some_iff hdrawn).mp hi
  exact ⟨i, hlt, isFree_iff.mp hfree', Cyclic.walks_of_findFrom? hi, by simp only [addSegment, hi]⟩

theorem card_held_populate (hle : count ≤ size) : (held (populate segment count size draw)).card = count := by
  induction count with
  | zero => exact congrArg Multiset.card held_replicate
  | succ n ih =>
    have hcard := ih (Nat.le_of_succ_le hle)
    have hroom : (held (populate segment n size draw)).card < (populate segment n size draw).size := by
      rw [hcard, size_populate]
      exact hle
    obtain ⟨i, hi, hfree, -, hadd⟩ := addSegment_ends segment (draw n) hroom
    rw [populate_succ, hadd, held_fill hi hfree, Multiset.card_cons, hcard]

/-- As many slots are occupied as there are segments in them. -/
theorem length_occupied (slots : Slots) : (occupied slots).length = (held slots).card := by
  have hall : ∀ i ∈ occupied slots, (occupant? slots i).isSome := fun i hi => (List.mem_filter.mp hi).2
  rw [held, Multiset.coe_card, ← filterMap_occupied, List.length_filterMap_eq_countP, eq_comm, List.countP_eq_length]
  exact hall

/-- Every segment has found a slot of its own. -/
structure Populated (segment : Segment) (count size : Nat) (draw : Nat → Nat) : Prop where
  sized : (populate segment count size draw).size = size
  /-- The search for each slot ends, at one that is free, and nothing else changes. -/
  ends : ∀ n < count, ∃ i < size, occupant? (populate segment n size draw) i = none ∧
    Cyclic.Walks size (isFree (populate segment n size draw)) (draw n % size) i ∧
    populate segment (n + 1) size draw = (populate segment n size draw).setIfInBounds i (some segment)
  occupied : (occupied (populate segment count size draw)).length = count
  only : ∀ i ∈ Placement.occupied (populate segment count size draw),
    occupant? (populate segment count size draw) i = some segment

theorem populated (segment : Segment) (draw : Nat → Nat) (hle : count ≤ size) : Populated segment count size draw where
  sized := size_populate
  ends n hn := by
    have hroom : (held (populate segment n size draw)).card < (populate segment n size draw).size := by
      rw [card_held_populate (by omega), size_populate]
      omega
    obtain ⟨i, hi, hfree, hwalks, hadd⟩ := addSegment_ends segment (draw n) hroom
    rw [size_populate] at hi hwalks
    exact ⟨i, hi, hfree, hwalks, (populate_succ ..).trans hadd⟩
  occupied := by rw [length_occupied, card_held_populate hle]
  only i hi := by
    obtain ⟨g, hg⟩ := Option.isSome_iff_exists.mp (List.mem_filter.mp hi).2
    exact hg.trans (congrArg some (eq_of_populate hg))

/-! ### Routing keys -/

/-- The first slot at or after `start`, round the circle, that has a segment. -/
def FirstFrom (slots : Slots) (start i : Nat) : Prop :=
  ∃ d < slots.size, i = (start + d) % slots.size ∧ isTaken slots i = true ∧
    ∀ e < d, isTaken slots ((start + e) % slots.size) = false

theorem route?_eq_some_iff (hpos : 0 < slots.size) :
    route? slots key = some i ↔ FirstFrom slots (key.hash.toNat % slots.size) i :=
  Cyclic.find?_eq_some_iff_steps (Nat.mod_lt _ hpos)

theorem exists_firstFrom (hstart : start < slots.size) (hi : isTaken slots i = true) (hlt : i < slots.size) :
    ∃ j, FirstFrom slots start j := by
  obtain ⟨j, hj⟩ := Cyclic.exists_find? hstart hlt hi
  exact ⟨j, (Cyclic.find?_eq_some_iff_steps hstart).mp hj⟩

theorem FirstFrom.unique (hstart : start < slots.size) (hi : FirstFrom slots start i) (hj : FirstFrom slots start j) :
    i = j := by
  have hfound := (Cyclic.find?_eq_some_iff_steps hstart).mpr hi
  rw [(Cyclic.find?_eq_some_iff_steps hstart).mpr hj] at hfound
  exact (Option.some.inj hfound).symm

end Placement

namespace Store

open RecordStore.Action

variable {α : Type} {s s' : Store} {g : Segment} {i : Nat} {key : Value}

/-! ### The slots that have a segment -/

/-- The same slots have a segment. -/
structure Stands (s s' : Store) : Prop where
  size : s'.slots.size = s.slots.size
  isTaken : Placement.isTaken s'.slots = Placement.isTaken s.slots

instance : IsPreorder Store Stands where
  refl _ := ⟨rfl, rfl⟩
  trans _ _ _ h₁ h₂ := ⟨h₂.size.trans h₁.size, h₂.isTaken.trans h₁.isTaken⟩

theorem Anchored.stands (h : Anchored s s') : Stands s s' := by
  refine ⟨h.size, funext fun i => ?_⟩
  have hsame := congrArg Option.isSome (h.segment? i)
  rw [Option.isSome_map, Option.isSome_map] at hsame
  exact hsame

/-- What a store may go through: a request, or anything that others do to the memory and the notifier that it shares
    with them. -/
inductive Incident
  | ask (q : Request)
  | share (memory : Memory) (notifier : Notifier)

def Incident.run : Incident → Store → Store
  | ask q, s => (answer q s).2
  | share memory notifier, s => { s with memory, notifier }

/-- The store after some incidents, one after the other. -/
def outlive (incidents : List Incident) (s : Store) : Store := incidents.foldl (fun s x => x.run s) s

theorem Incident.run_stands (x : Incident) (s : Store) : Stands s (x.run s) := by
  cases x with
  | ask q => exact (anchored_answer s q).stands
  | share memory notifier => exact ⟨rfl, rfl⟩

theorem outlive_stands (incidents : List Incident) (s : Store) : Stands s (outlive incidents s) := by
  induction incidents generalizing s with
  | nil => exact refl s
  | cons x incidents ih => exact IsTrans.trans _ _ _ (x.run_stands s) (ih (x.run s))

theorem Stands.route? (h : Stands s s') (key : Value) :
    Placement.route? s'.slots key = Placement.route? s.slots key := by
  rw [Placement.route?, Placement.route?, h.isTaken, h.size]

theorem Stands.segment? (h : Stands s s') (hi : s.segment? i = some g) : ∃ g', s'.segment? i = some g' := by
  have hsame : (s'.segment? i).isSome = (s.segment? i).isSome := congrFun h.isTaken i
  rw [hi] at hsame
  exact Option.isSome_iff_exists.mp hsame

/-! ### The segment of a key -/

/-- An operation is carried out by the segment in slot `i`, and by no other. -/
def CarriedOutBy (i : Nat) (x : Segment.Op α) (y : Op α) (s : Store) : Prop :=
  ∃ g, s.segment? i = some g ∧ y s =
    match x (s.part g) with
    | .ok a u => .ok a (s.update i u)
    | .error e u => .error e (s.update i u)

theorem carriedOutBy_of_route (x : Segment.Op α) (hroute : Placement.route? s.slots key = some i)
    (hi : s.segment? i = some g) : CarriedOutBy i x (onSegmentOf key x) s := by
  refine ⟨g, hi, ?_⟩
  rw [onSegmentOf_eq x hroute]
  cases hx : x (s.part g) with
  | ok a u => exact onSegment_ok hi hx
  | error e u => exact onSegment_error hi hx

/-- A key belongs to the first segment at or after the place that its hash gives. Whatever the store goes through, what
    is done about this key, or about any other one with its hash, is carried out by that segment. -/
structure BelongsTo (s : Store) (key : Value) (i : Nat) : Prop where
  first : Placement.FirstFrom s.slots (key.hash.toNat % s.slots.size) i
  always : ∀ incidents key' (α : Type) (x : Segment.Op α), key'.hash = key.hash →
    CarriedOutBy i x (onSegmentOf key' x) (outlive incidents s)

theorem belongsTo_of_firstFrom (hpos : 0 < s.slots.size)
    (hfirst : Placement.FirstFrom s.slots (key.hash.toNat % s.slots.size) i) : BelongsTo s key i := by
  refine ⟨hfirst, fun incidents key' α x hhash => ?_⟩
  have hstands := outlive_stands incidents s
  have hroute : Placement.route? s.slots key' = some i := by
    rw [← hhash] at hfirst
    exact (Placement.route?_eq_some_iff hpos).mpr hfirst
  obtain ⟨d, -, -, htaken, -⟩ := hfirst
  obtain ⟨g, hi⟩ := Option.isSome_iff_exists.mp htaken
  obtain ⟨g', hi'⟩ := hstands.segment? hi
  exact carriedOutBy_of_route x ((hstands.route? key').trans hroute) hi'

/-- Wherever the searches for the slots begin, they end, and in a store with these slots, as each new one has them, each
    key belongs to just one segment. -/
theorem routed_of_populate {count size : Nat} (segment : Segment) (draw : Nat → Nat) (hpos : 0 < count)
    (hle : count ≤ size) :
    Placement.Populated segment count size draw ∧
      (∀ schema (config : StoreConfig) memory notifier clock s, config.minSegments = count →
        config.maxSegments = size → create schema config memory notifier clock draw = .ok s →
          s.slots = Placement.populate (Segment.empty config.segmentCapacity) count size draw) ∧
      ∀ s : Store, s.slots = Placement.populate segment count size draw → ∀ key, ∃! i, BelongsTo s key i := by
  refine ⟨Placement.populated segment draw hle, ?_, fun s hs key => ?_⟩
  · rintro schema config memory notifier clock s rfl rfl hs
    obtain ⟨-, rfl⟩ := of_create hs
    rfl
  have hsize : s.slots.size = size := hs ▸ Placement.size_populate
  have hstart : key.hash.toNat % s.slots.size < s.slots.size := Nat.mod_lt _ (by omega)
  obtain ⟨j, hj⟩ : ∃ j, occupant? s.slots j = some segment := by
    rw [hs]
    exact Placement.exists_populate segment draw hpos (by omega)
  obtain ⟨i, hi⟩ := Placement.exists_firstFrom hstart (Option.isSome_of_mem hj) (lt_of_occupant? hj)
  exact ⟨i, belongsTo_of_firstFrom (by omega) hi, fun i' hi' => hi'.first.unique hstart hi⟩

/-- Both searches begin at the last of three slots, so that the second one goes on at the first slot; keys whose place is
    the one between go on to the last. -/
theorem routed_round_the_end :
    Placement.occupied (Placement.populate (Segment.empty 2) 2 3 fun _ => 2) = [0, 2] ∧
      Placement.Populated (Segment.empty 2) 2 3 (fun _ => 2) ∧
      ∀ key, ∃! i, BelongsTo (made ⟨"Entry", []⟩ { minSegments := 2, maxSegments := 3, segmentCapacity := 2 } .empty
        (.silent "Entry") ⟨0⟩ fun _ => 2) key i := by
  obtain ⟨hpopulated, -, hrouted⟩ := routed_of_populate (Segment.empty 2) (fun _ => 2) (by decide : 0 < 2)
    (by decide : 2 ≤ 3)
  exact ⟨rfl, hpopulated, hrouted _ rfl⟩

end Store

end RecordStore
