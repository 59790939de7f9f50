import RecordStore.Proofs.Store.Emptying
import RecordStore.Proofs.Store.SharedMemory
import RecordStore.Proofs.Twins.Store

/-! # Tearing down and starting again

A store that is torn down gives back all of its blocks, counts nothing and has the segments that it was made with. If no
release has failed, nobody can tell it from a store that was just made, except by figures that are kept for the record
and by the numbers of handles. A segment that goes out of use gives back what it still holds. -/

namespace RecordStore

open RecordStore.Action

/-! ### One segment -/

namespace Segment

variable {t : State} {h : Handle}

/-- What is left when a segment goes out of use: its blocks are given back, as far as the releases do not fail, and its
    entries are no longer counted. -/
structure Dropped (t : State) (left : Shared) : Prop where
  visited : left.memory = t.memory.releaseAll t.segment.handles
  blocks : ∀ h ∈ t.segment.handles,
    (left.memory.arena.block? h).isSome ↔ h ∈ Memory.refused t.segment.handles t.memory.faults
  others : ∀ h, h ∉ t.segment.handles → left.memory.arena.block? h = t.memory.arena.block? h
  items : left.counters.items + t.segment.count = t.counters.items
  bytes : left.counters.bytes + UInt64.ofNat (weight t.records) = t.counters.bytes
  expired : left.counters.expired = t.counters.expired
  notifier : left.notifier = t.notifier

theorem drop_orderly (ht : t.Orderly) : Dropped t (drop t) := by
  obtain ⟨rehash?, hfinal⟩ := final_destroy ht
  have hwell := ht.wellFormed
  have hnodup : t.segment.handles.Nodup := Multiset.coe_nodup.mp hwell.table.chained.nodup
  have hcount : t.records.card = t.segment.count := hwell.table.card_records
  have hbacked : t.records.card ≤ t.counters.items := hwell.backed
  rw [drop_eq, hfinal]
  refine ⟨rfl, fun h hh => ?_, fun h hh => ?_, ?_, ?_, rfl, rfl⟩
  · obtain ⟨r, hr, -⟩ := ht.record? (Multiset.mem_coe.mpr hh)
    obtain ⟨b, hb, -⟩ := Option.bind_eq_some_iff.mp hr
    exact Memory.isSome_releaseAll hnodup hh (hb ▸ rfl)
  · exact Memory.block?_releaseAll_of_notMem hnodup hh
  · rw [← hcount]
    exact Nat.sub_add_cancel hbacked
  · exact UInt64.sub_add_cancel _ _

/-- A segment that holds nothing leaves all as it is. -/
theorem drop_empty {capacity : Nat} (hempty : t.segment = empty capacity) : drop t = t.toShared := by
  have hnone : t.segment.handles = [] := by
    have hheld : held t.segment.slots = 0 := hempty ▸ held_replicate
    exact Multiset.coe_eq_zero t.segment.handles |>.mp hheld
  have hhandles : currentHandles t = .ok [] t := congrArg (EStateM.Result.ok · t) hnone
  have hdiscard : discardAll [] none t = .ok none t := rfl
  have hrun : destroy t = .ok () { t with segment := empty t.segment.minCapacity } := by
    simp only [destroy, bind_ok hhandles, bind_ok hdiscard]
    rfl
  rw [drop_eq, final_ok hrun]

end Segment

/-- What lies in the same slots of one array is related to itself. -/
theorem Matched.same {α : Type} {R : α → α → Prop} {slots : Array (Option α)} (h : ∀ x ∈ held slots, R x x) :
    Matched R slots slots := by
  refine List.forall₂_same.mpr fun x? hx => ?_
  cases x? with
  | none => exact .none
  | some x => exact .some (h x (Multiset.mem_coe.mpr (List.mem_filterMap.mpr ⟨some x, hx, rfl⟩)))

theorem Arena.allocatedBytes_eq_zero {a : Arena} (ha : a.Sound) (hnone : ∀ h, a.block? h = none) :
    a.allocatedBytes = 0 := by
  have htotal := a.total_eq_sum List.nodup_nil (fun h => by simp [hnone h]) Block.size
  rw [ha.bytes, htotal]
  rfl

namespace Store

variable {s s' : Store} {schema : Schema} {config : StoreConfig} {memory m : Memory} {notifier : Notifier}
  {clock : Clock} {draw : Nat → Nat}

/-! ### Telling stores apart -/

/-- At present two stores look the same: they would answer any request alike, but for the handles that errors name, and
    show the same figures. -/
structure Resembles (s s' : Store) : Prop where
  answers : ∀ q, (answer q s).1.unnamed = (answer q s').1.unnamed
  size : s.size = s'.size
  bytes : s.bytesUsed = s'.bytesUsed
  summary : s.summary = s'.summary
  segments : ∀ i, (s.segment? i).map Segment.summary = (s'.segment? i).map Segment.summary
  /-- Listeners have been told the same. -/
  notifier : s.notifier = s'.notifier
  allocated : s.memory.arena.allocatedBytes = s'.memory.arena.allocatedBytes

/-- Whatever two stores go through, also while calls fail, they look the same. -/
def Indistinct (s s' : Store) : Prop := ∀ trials, (endure trials s).Resembles (endure trials s')

theorem Twins.resembles {p p' : Nat} (hs : s.Twins p p' s') : s.Resembles s' where
  answers q := (hs.answer q).1
  size := hs.size
  bytes := hs.bytesUsed
  summary := hs.summary
  segments i := by
    have hi : Option.Rel (Segment.Twins p p') (s.segment? i) (s'.segment? i) := hs.slots.occupant? i
    generalize s.segment? i = g?, s'.segment? i = g?' at hi
    cases hi with
    | none => rfl
    | some hg => exact congrArg some hg.summary
  notifier := hs.shared.notifier
  allocated := hs.shared.memory.arena.allocatedBytes

theorem Twins.indistinct {p p' : Nat} (hs : s.Twins p p' s') : s.Indistinct s' := fun trials =>
  (hs.endure trials).resembles

/-! ### As it was made -/

/-- The segments of a store that has been emptied are those that it was made with. -/
theorem Emptied.slots_eq (h : Emptied (Placement.occupied s.slots) s s')
    (hs : Anchored (made schema config memory notifier clock draw) s)
    (hs' : Anchored (made schema config memory notifier clock draw) s') :
    s'.slots = Placement.populate (Segment.empty config.segmentCapacity) config.minSegments config.maxSegments draw := by
  refine ext_occupant? hs'.size fun i => ?_
  let s₀ := made schema config memory notifier clock draw
  have hremade : (s₀.segment? i).map (fun g => Segment.empty g.minCapacity) = s₀.segment? i := by
    cases hi : s₀.segment? i with
    | none => rfl
    | some g =>
      rw [Placement.eq_of_populate (show occupant? _ i = some g from hi)]
      rfl
  calc s'.segment? i = (s.segment? i).map fun g => Segment.empty g.minCapacity := h.segment?_eq i
    _ = ((s.segment? i).map Segment.minCapacity).map Segment.empty := by rw [Option.map_map]; rfl
    _ = ((s₀.segment? i).map Segment.minCapacity).map Segment.empty := by rw [hs.segment? i]
    _ = (s₀.segment? i).map fun g => Segment.empty g.minCapacity := by rw [Option.map_map]; rfl
    _ = s₀.segment? i := hremade

/-- A store that has been emptied and a new one are twins, if their memories grant the same. -/
theorem twins_made (hs : Anchored (made schema config memory notifier clock draw) s)
    (hslots : s.slots = Placement.populate (Segment.empty config.segmentCapacity) config.minSegments config.maxSegments
      draw)
    (hsize : s.size = 0) (hbytes : s.bytesUsed = 0) (hfaults : m.faults = s.memory.faults)
    (hlimit : m.arena.limit? = s.memory.arena.limit?)
    (hallocated : m.arena.allocatedBytes = s.memory.arena.allocatedBytes) :
    s.Twins s.memory.arena.blocks.size m.arena.blocks.size (made schema config m s.notifier s.clock draw) where
  shared := by
    refine ⟨⟨⟨⟨0, rfl, rfl⟩, ?_, hallocated.symm, hlimit.symm⟩, hfaults.symm⟩, ⟨0, none, ?_⟩, rfl, rfl⟩
    · rintro _ _ ⟨n, rfl, rfl⟩
      have hnone (a : Arena) : a.block? ⟨a.blocks.size + n⟩ = none := by
        rw [Arena.block?, Array.getElem?_eq_none (Nat.le_add_right _ n)]
        rfl
      exact (hnone _).trans (hnone m.arena).symm
    · have hterms := hs.terms
      unfold size at hsize
      unfold bytesUsed at hbytes
      unfold Counters.marked
      unfold Counters.terms at hterms
      simp only [Prod.mk.injEq] at hterms
      rw [hterms.1, hterms.2.1, hterms.2.2, hsize, hbytes]
      rfl
  schema := hs.schema
  slots := by
    rw [hslots]
    refine Matched.same fun g hg => ?_
    obtain ⟨i, hi⟩ := mem_held.mp hg
    rw [Placement.eq_of_populate hi]
    exact .empty _
  segmentCount := hs.segmentCount

/-- Whatever is asked of a store, its memory keeps its limit. -/
theorem limit?_run {requests : List Request} (hs : s.WellFormed) (hfits : ∀ q ∈ requests, q.Fits s.schema) :
    (run requests s).2.memory.arena.limit? = s.memory.arena.limit? := by
  induction requests generalizing s with
  | nil => rfl
  | cons q requests ih =>
    obtain ⟨clock, rs, hleads⟩ := answer_leads hs (hfits q List.mem_cons_self)
    have hschema : (answer q s).2.schema = s.schema := hleads.keeps.schema
    refine (ih hleads.wellFormed fun q' hq' => ?_).trans hleads.keeps.limit?
    rw [hschema]
    exact hfits q' (List.mem_cons_of_mem q hq')

/-! ### Tearing down -/

/-- From `s` to `s'` a store was torn down that was made in a memory as described. -/
structure TornDown (schema : Schema) (config : StoreConfig) (memory : Memory) (draw : Nat → Nat) (s s' : Store) :
    Prop where
  /-- It fails just if a release does. -/
  outcome : destroy s = if Memory.refused s.handles s.memory.faults = [] then .ok () s'
    else .error (.error Memory.plannedFault) s'
  items : s'.size = 0
  bytes : s'.bytesUsed = 0
  /-- The segments are as they were made, in the same slots. -/
  slots : s'.slots =
    Placement.populate (Segment.empty config.segmentCapacity) config.minSegments config.maxSegments draw
  /-- Nobody is told of anything. -/
  notifier : s'.notifier = s.notifier
  expired : s'.counters.expired = s.counters.expired
  /-- Every slot of every segment is visited once. -/
  visited : s'.memory = s.memory.releaseAll s.handles
  /-- Of the blocks of the store those stay whose release failed. -/
  blocks : ∀ h ∈ s.handles,
    (s'.memory.arena.block? h).isSome ↔ h ∈ Memory.refused s.handles s.memory.faults
  others : ∀ h, h ∉ s.handles → s'.memory.arena.block? h = s.memory.arena.block? h
  /-- In a memory of its own there are no other blocks than these. -/
  alone : (∀ h, memory.arena.block? h = none) →
    ∀ h, (s'.memory.arena.block? h).isSome ↔ h ∈ Memory.refused s.handles s.memory.faults
  /-- In a memory that grants the same a new store cannot be told from it. -/
  renewed : ∀ m : Memory, m.faults = s'.memory.faults → m.arena.limit? = s'.memory.arena.limit? →
    m.arena.allocatedBytes = s'.memory.arena.allocatedBytes →
      ∃ fresh, create schema config m s'.notifier s'.clock draw = .ok fresh ∧ s'.Indistinct fresh
  /-- If no release has failed in a memory of its own, neither can one in a memory that was not used yet. -/
  afresh : (∀ h, memory.arena.block? h = none) → Memory.refused s.handles s.memory.faults = [] →
    ∃ fresh, create schema config ⟨.empty memory.arena.limit?, s'.memory.faults⟩ s'.notifier s'.clock draw = .ok fresh ∧
      s'.Indistinct fresh
  /-- Each of the segments could have gone out of use instead. -/
  dropped : ∀ i g, s.segment? i = some g → Segment.Dropped (s.part g) (Segment.drop (s.part g))
  /-- When they go out of use now, they have nothing to give back. -/
  idle : ∀ i g, s'.segment? i = some g → Segment.drop (s'.part g) = s'.toShared

/-- A configuration that was carried out can be carried out again, in any memory and at any time. -/
theorem create_again {s₀ : Store} (hs₀ : create schema config memory notifier clock draw = .ok s₀) (m : Memory)
    (notifier' : Notifier) (clock' : Clock) :
    create schema config m notifier' clock' draw = .ok (made schema config m notifier' clock' draw) := by
  obtain ⟨hvalid, -⟩ := of_create hs₀
  have hsegment := segment_of_create hs₀
  cases hshrink : config.shrinkThreshold with
  | error a =>
    simp only [create, hvalid, hshrink] at hs₀
    cases hs₀
  | ok shrink =>
    by_cases hslots : maxSlots < config.maxSegments
    · simp only [create, hvalid, hshrink, if_pos hslots] at hs₀
      cases hs₀
    · have hpercent : shrink = config.nominalCapacity * 15 / 100 := by
        unfold StoreConfig.shrinkThreshold at hshrink
        split at hshrink
        · cases hshrink
          rfl
        · cases hshrink
      simp only [create, hvalid, hshrink, if_neg hslots, hsegment, hpercent]
      rfl

theorem tornDown {s₀ : Store} (hs₀ : create schema config memory notifier clock draw = .ok s₀) (hs : s.Orderly)
    (hmade : Anchored s₀ s) (hlimit : s.memory.arena.limit? = memory.arena.limit?)
    (howns : (∀ h, memory.arena.block? h = none) → s.Owns) :
    TornDown schema config memory draw s (final destroy s) := by
  obtain ⟨-, rfl⟩ := of_create hs₀
  obtain ⟨s', hemptied, hdestroy⟩ := destroy_runs hs
  have hfinal : final destroy s = s' := by
    split at hdestroy
    · exact final_ok hdestroy
    · exact final_error hdestroy
  have hmade' : Anchored (made schema config memory notifier clock draw) s' :=
    IsTrans.trans _ _ _ hmade (hfinal ▸ moves_destroy bears_anchored.destroy s)
  have hslots := hemptied.slots_eq hmade hmade'
  have hrenewed : ∀ m : Memory, m.faults = s'.memory.faults → m.arena.limit? = s'.memory.arena.limit? →
      m.arena.allocatedBytes = s'.memory.arena.allocatedBytes →
        ∃ fresh, create schema config m s'.notifier s'.clock draw = .ok fresh ∧ s'.Indistinct fresh :=
    fun m hfaults hlimit hallocated => ⟨_, create_again hs₀ m s'.notifier s'.clock,
      (twins_made hmade' hslots hemptied.size_eq hemptied.bytesUsed_eq hfaults hlimit hallocated).indistinct⟩
  have halone hunused := hemptied.isSome_iff_of_owns hs (howns hunused)
  rw [hfinal]
  refine ⟨hdestroy, hemptied.size_eq, hemptied.bytesUsed_eq, hslots, hemptied.notifier, hemptied.expired,
    hemptied.memory_eq, fun _ => hemptied.isSome_iff hs, fun _ => hemptied.block?_of_notMem hs, halone, hrenewed,
    fun hunused hgranted => ?_, fun i g hi => Segment.drop_orderly (hs.part hi), fun i g hi => ?_⟩
  · have hvacant (h : Handle) : s'.memory.arena.block? h = none := by
      have hgone := halone hunused h
      rw [hgranted] at hgone
      exact Option.not_isSome_iff_eq_none.mp fun hlive => List.not_mem_nil (hgone.mp hlive)
    have hsound : s'.memory.arena.Sound := hemptied.orderly.wellFormed.sound
    exact hrenewed _ rfl ((hemptied.limit?_eq hs).trans hlimit).symm (Arena.allocatedBytes_eq_zero hsound hvacant).symm
  · rw [hemptied.segment?_eq] at hi
    obtain ⟨g₀, -, rfl⟩ := Option.map_eq_some_iff.mp hi
    exact Segment.drop_empty rfl

/-- Whatever was asked of a store before, and whichever releases fail while it is torn down: all of its blocks but those
    are given back, it counts nothing, and it is as good as new. -/
theorem tornDown_of_run {s₀ : Store} {requests : List Request} {f : Faults}
    (hs₀ : create schema config memory notifier clock draw = .ok s₀) (hsteady : memory.Steady)
    (hsound : memory.arena.Sound) (hfits : ∀ q ∈ requests, q.Fits schema) (hread : f.read = [])
    (hs : s = (run requests s₀).2.withFaults f) : TornDown schema config memory draw s (final destroy s) := by
  obtain ⟨hvalid, hmade⟩ := of_create hs₀
  subst hmade hs
  have hs₀' : (made schema config memory notifier clock draw).WellFormed := wellFormed_made hvalid hsteady hsound
  obtain ⟨hrun, howned⟩ := run_wellFormed hs₀' hfits
  refine tornDown hs₀ (hrun.orderly.withFaults hread) ?_ ?_ ?_
  · exact { anchored_run _ requests with }
  · exact limit?_run hs₀' hfits
  · exact fun hunused => howned fun h hlive => absurd (hunused h) hlive

/-- Two segments in three slots, with three entries. -/
def settled : Store :=
  (run [.put [1, 0, 1, 1] 5, .put [1, 0, 1, 0] 5, .put [1, 0, 2, 0, 0, 0, 0, 0, 0, 0, 0] Lifetime.forever]
    (made ⟨"Entry", []⟩ { minSegments := 2, maxSegments := 3, segmentCapacity := 2 } .empty (.silent "Entry") ⟨0⟩
      (Placement.evenly 2 3))).2

/-- The second one of three releases fails. -/
theorem tornDown_of_failing_release :
    TornDown ⟨"Entry", []⟩ { minSegments := 2, maxSegments := 3, segmentCapacity := 2 } .empty (Placement.evenly 2 3)
      (settled.withFaults { release := [1] }) (final destroy (settled.withFaults { release := [1] })) ∧
    (Memory.refused (settled.withFaults { release := [1] }).handles { release := [1] }).length = 1 ∧
    (settled.withFaults { release := [1] }).handles.length = 3 := by
  have hmade : create ⟨"Entry", []⟩ { minSegments := 2, maxSegments := 3, segmentCapacity := 2 } .empty
      (.silent "Entry") ⟨0⟩ (Placement.evenly 2 3) = .ok (made _ _ _ _ _ _) := rfl
  refine ⟨tornDown_of_run hmade ⟨rfl, rfl, rfl⟩ (Arena.sound_empty none) ?_ rfl rfl, by decide +kernel, by decide +kernel⟩
  have hfour : 4 < Record.lengthLimit := by decide
  have heleven : 11 < Record.lengthLimit := by decide
  simp only [List.forall_mem_cons]
  exact ⟨hfour, hfour, heleven, fun _ hq => absurd hq List.not_mem_nil⟩

end Store

end RecordStore
