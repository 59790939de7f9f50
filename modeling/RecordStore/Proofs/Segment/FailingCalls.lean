import RecordStore.Proofs.Segment.Clearing
import RecordStore.Proofs.Segment.Evicting
import RecordStore.Proofs.Segment.Finding
import RecordStore.Proofs.Segment.Visiting
import RecordStore.Proofs.Segment.Withdrawing

/-! # Failing calls

Room, writes and releases may be refused at any place of any operation. As long as no record is torn the segment stays
in order, its records counted, and no records come into it but those that are put. -/

namespace RecordStore

open RecordStore.Action

namespace Record

variable {m : Memory} {r : Record} {old : Handle} {b : Block}

/-- A record is refused the room for it, or it fails later, or it stands in the place of another one. -/
theorem storeOver_outcomes (hb : m.arena.block? old = some b) (hsize : r.size ≤ Block.addressable) :
    (∃ e m', Memory.reallocate old r.size m = .error (.error e) m' ∧ m'.arena = m.arena ∧
      r.storeOver old m = .error (.error e) m') ∨
    (∃ h m', Memory.reallocate old r.size m = .ok h m') ∧
      ((∃ e m', r.storeOver old m = .error (.error e) m') ∨
        ∃ h m' b', r.storeOver old m = .ok { r with handle := h } m' ∧ r.payload.length < lengthLimit ∧
          (h = old ∨ m.arena.block? h = none) ∧ b'.toList = r.encode ∧
          m.arena.Becomes m'.arena (Function.update (Function.update m.arena.block? old none) h (some b'))) := by
  rcases Memory.reallocate_cases r.size hb with
    ⟨e, -, he⟩ | ⟨h, b₁, a, hok, hplace, hresized, hbecomes⟩ | ⟨-, -, hlong, -⟩
  · exact Or.inl ⟨e, _, he, rfl, Action.bind_error he⟩
  · refine Or.inr ⟨⟨h, _, hok⟩, ?_⟩
    have hsize' : b₁.size = r.size := by
      rw [Block.size_eq_length, hresized, ← Block.size_eq_length, Block.size_resize]
    have hblock : a.block? h = some b₁ := by rw [hbecomes.block?, Function.update_self]
    rcases writeTo_outcomes (m := ⟨a, m.faults.pass .reallocate⟩) hblock hsize' with
      ⟨-, e, m', -, hwrite, -⟩ | ⟨-, hfits, m', b', hwrite, hbytes, hbecomes'⟩
    · exact Or.inl ⟨e, m', by simp only [storeOver, Action.bind_ok hok, Action.bind_error hwrite]⟩
    · have hall := hbecomes.trans hbecomes'
      rw [hbecomes.block?, Function.update_idem] at hall
      refine Or.inr ⟨h, m', b', ?_, hfits, hplace.imp And.left And.left, hbytes, hall⟩
      simp only [storeOver, Action.bind_ok hok, Action.bind_ok hwrite, Action.pure_run]
  · exact absurd hsize (Nat.not_le_of_lt hlong)

end Record

namespace Segment

variable {α : Type} {P : Record → Prop} {t u : State} {r r₀ : Record} {k : Value} {h : Handle} {i : Nat}

/-! ### What is sustained -/

/-- From a state in order whose records are of a kind to another such state. Blocks of others have stayed, and the
    counters have followed the records. -/
def Sustains (P : Record → Prop) (t u : State) : Prop :=
  t.Orderly → (∀ r ∈ t.records, P r) →
    u.memory.Legible ∧ ∃ rs, Alters (t.replan .never) (u.replan .never) rs ∧ ∀ r ∈ rs, P r

theorem Sustains.of_alters {rs : Multiset Record} (hlegible : t.Orderly → u.memory.Legible)
    (hu : t.Orderly → Alters (t.replan .never) (u.replan .never) rs) (hP : (∀ r ∈ t.records, P r) → ∀ r ∈ rs, P r) :
    Sustains P t u := fun ht hall => ⟨hlegible ht, rs, hu ht, hP hall⟩

theorem Sustains.refl (t : State) : Sustains P t t :=
  .of_alters State.Orderly.legible (fun ht => (Leads.refl ht.wellFormed).alters) id

instance : IsPreorder State (Sustains P) where
  refl := Sustains.refl
  trans t u v h₁ h₂ ht hall := by
    obtain ⟨hlegible, rs, hu, hrs⟩ := h₁ ht hall
    have hrecords : u.records = rs := hu.records
    obtain ⟨hlegible', rs', hv, hrs'⟩ := h₂ ⟨hlegible, hu.wellFormed⟩ fun r hr => hrs r (hrecords ▸ hr)
    exact ⟨hlegible', rs', hu.trans hv, hrs'⟩

theorem Unwritten.sustains (h : Unwritten t u) : Sustains P t u := fun ht => by
  rw [h.same ht.legible]
  exact Sustains.refl t ht

/-- What is not of the segment and its records may change. -/
theorem sustains_of_same (hsegment : u.segment = t.segment) (harena : u.memory.arena = t.memory.arena)
    (hlegible : t.memory.Legible → u.memory.Legible) (hitems : u.counters.items = t.counters.items)
    (hbytes : u.counters.bytes = t.counters.bytes) : Sustains P t u := by
  have hrecords : u.records = t.records := by rw [State.records, State.records, hsegment, harena]
  refine .of_alters (fun ht => hlegible ht.legible) (fun ht => ?_) id
  refine ⟨⟨⟨?_, ⟨rfl, rfl, rfl⟩, ?_⟩, ?_⟩, fun h hh _ => ⟨?_, ?_⟩, hrecords, ?_, ?_⟩
  · show InOrder u.memory.arena u.segment
    rw [hsegment, harena]
    exact ht.wellFormed.table
  · show u.memory.arena.Sound
    rw [harena]
    exact ht.wellFormed.sound
  · show u.records.card ≤ u.counters.items
    rw [hrecords, hitems]
    exact ht.wellFormed.backed
  · show h ∉ held u.segment.slots
    rw [hsegment]
    exact hh
  · show u.memory.arena.block? h = t.memory.arena.block? h
    rw [harena]
  · show u.counters.items + t.records.card = t.counters.items + t.records.card
    rw [hitems]
  · show u.counters.bytes + UInt64.ofNat (weight t.records) = t.counters.bytes + UInt64.ofNat (weight t.records)
    rw [hbytes]

theorem legible_passed {m : Memory} {c : Call} (hc : c ≠ .read) (hm : m.Legible) : (m.passed c).Legible :=
  (m.faults.gaps_pass (d := .read) hc.symm).trans hm

/-! ### Removing and evicting -/

theorem removeAt_sustains (ht : t.Orderly) (hi : occupant? t.segment.slots i = some h)
    (hr : t.memory.arena.record? h = some r) (hk : r.key? = some k) : Sustains P t (final (removeAt i h) t) := by
  rcases removeAt_cases ht hi hr hk with ⟨-, hrun⟩ | ⟨-, u, hrun, hleads, hfaults, -⟩
  · rw [final_error hrun]
    exact sustains_of_same rfl rfl (legible_passed (by decide)) rfl rfl
  · rw [final_ok hrun]
    refine .of_alters (fun _ => ?_) (fun _ => hleads.alters) fun hall r hr => hall r (Multiset.mem_of_mem_filter hr)
    show u.memory.faults.read = []
    rw [hfaults]
    exact legible_passed (c := .release) (by decide) ht.legible

theorem moves_remove (k : Value) : Moves (Sustains P) (remove k) := fun t ht => by
  rcases ht.wellFormed.table.probe_cases (t := t) ht.legible k with ⟨i, h, r, hprobe, hi, hr, hk⟩ | ⟨i, hprobe, -, -⟩
  · have hrun : remove k t = (removeAt i h >>= fun p => pure p.1 : Op Nat) t := Action.bind_ok hprobe
    rw [final, hrun]
    exact Moves.bind_at (removeAt_sustains ht hi hr hk) (fun _ => Moves.pure _) ht
  · have hrun : remove k t = .ok 0 t := Action.bind_ok hprobe
    rw [final_ok hrun]
    exact Sustains.refl t ht

theorem moves_notify (x : Notice) : Moves (Sustains P) (onNotifier (Notifier.notify x)) := fun t => by
  rw [final_onNotifier]
  exact sustains_of_same rfl rfl id rfl rfl

theorem moves_evict (k : Value) : Moves (Sustains P) (evict k) := fun t ht => by
  rcases ht.wellFormed.table.probe_cases (t := t) ht.legible k with ⟨i, h, r, hprobe, hi, hr, hk⟩ | ⟨i, hprobe, -, -⟩
  · have hnow : now t = .ok t.clock.now t := rfl
    have hover := onMemory_read (Record.isOverAt_ok ht.legible hr t.clock.now)
    cases hdue : r.isOver t.clock.now with
    | false =>
      have hrun : evict k t = .ok false t := by
        simp only [evict, Action.bind_ok hprobe, Action.bind_ok hnow, Action.bind_ok hover, hdue, Bool.not_false,
          ↓reduceIte, Action.pure_run]
      rw [final_ok hrun]
      exact Sustains.refl t ht
    | true =>
      have hpayload := onMemory_read (Record.payloadAt_ok ht.legible hr)
      let rest (p : Nat × Lifetime) : Op Bool :=
        if p.1 = 0 then pure false
        else do
          modifyCounters (·.entryExpired)
          onNotifier (Notifier.notify ⟨r.payload, p.2⟩)
          return true
      have hrun : evict k t = (removeAt i h >>= rest) t := by
        simp only [evict, Action.bind_ok hprobe, Action.bind_ok hnow, Action.bind_ok hover, hdue, Bool.not_true,
          Bool.false_eq_true, ↓reduceIte, Action.bind_ok hpayload]
        rfl
      have hrest (p : Nat × Lifetime) : Moves (Sustains P) (rest p) := by
        dsimp only [rest]
        split
        · exact Moves.pure false
        · refine Moves.bind (fun _ => sustains_of_same rfl rfl id rfl rfl) fun _ => ?_
          exact (moves_notify _).bind fun _ => Moves.pure true
      rw [final, hrun]
      exact Moves.bind_at (removeAt_sustains ht hi hr hk) hrest ht
  · have hrun : evict k t = .ok false t := Action.bind_ok hprobe
    rw [final_ok hrun]
    exact Sustains.refl t ht

theorem moves_evictExpired : Moves (Sustains P) evictExpired := Unwritten.moves_evictExpired Unwritten.sustains moves_evict

/-! ### Finding -/

theorem moves_contains (k : Value) : Moves (Sustains P) (contains k) :=
  Unwritten.moves_contains Unwritten.sustains moves_evict k

theorem moves_getRecord? (k : Value) : Moves (Sustains P) (getRecord? k) :=
  Unwritten.moves_getRecord? Unwritten.sustains moves_evict k

theorem moves_get? (k : Value) : Moves (Sustains P) (get? k) := Unwritten.moves_get? Unwritten.sustains moves_evict k

theorem moves_matching (tm : Template) : Moves (Sustains P) (matching tm) :=
  Unwritten.moves_matching Unwritten.sustains moves_evict tm

/-! ### Storing -/

/-- The put of a record over a stored one fails, although the counters and the memory have granted it the room. -/
def State.Tears (t : State) (k : Value) (r : Record) : Prop :=
  (∃ r₀ ∈ t.records, r₀.key? = some k ∧ ¬ t.RefusesOver r₀ r) ∧ ∃ e u, put k r t = .error (.error e) u

/-- A record is refused the room to stand in the place of another one, or that one is torn, or it stands there. -/
theorem put_over_outcomes (ht : t.Orderly) (hr₀ : r₀ ∈ t.records) (hk₀ : r₀.key? = some k)
    (hsize : r.size ≤ Block.addressable) (hk : r.key? = some k) :
    (∃ e m, put k r t = .error (.error e) { t with memory := m } ∧ m.Legible ∧ m.arena = t.memory.arena) ∨
    t.Tears k r ∨
    ∃ h u, put k r t = .ok r₀.size u ∧ u.memory.Legible ∧
      Leads (t.replan .never) (u.replan .never) ({ r with handle := h } ::ₘ t.records.filter (·.key? ≠ some k)) := by
  obtain ⟨i, hi, hput⟩ := put_over_eq (t := t) ht.wellFormed.table ht.legible hr₀ hk₀ r
  have hholds := ht.wellFormed.table.holds_of_mem hr₀
  obtain ⟨b, hb, -⟩ := hholds.block
  rcases Counters.reserveReplace_cases t.counters r₀.size r.size with
    ⟨reason, hres, -⟩ | ⟨bytes, hres, hsum, hcancel⟩
  · have hrefused := reserve_error (t := t) (p := r.payload)
      (fun c => (c.reserveReplace r₀.size r.size).map ((), ·)) (congrArg (Except.map _) hres)
    exact Or.inl
      ⟨.capacityExceeded reason r.payload, t.memory, hput.trans (Action.bind_error hrefused), ht.legible, rfl⟩
  have hreads : Moves (Memory.SamePlan .read) (r.storeOver r₀.handle) :=
    Record.samePlan_storeOver (by decide) (by decide) r _
  rcases Record.storeOver_outcomes (m := t.memory) hb hsize with
    ⟨e, m, -, harena, hstore⟩ | ⟨⟨h, m, hgranted⟩, ⟨e, m', hstore⟩ | ⟨h', m', b', hstore, hfits, hh, hbytes, hbecomes⟩⟩
  · exact Or.inl ⟨e, m, hput.trans (overwrite_cancelled hres hcancel hstore), (hreads.error hstore).trans ht.legible, harena⟩
  · refine Or.inr (Or.inl ⟨⟨r₀, hr₀, hk₀, ?_⟩, e, _, hput.trans (overwrite_cancelled hres hcancel hstore)⟩)
    rintro (⟨reason, hreason⟩ | ⟨e', m'', hrefused⟩)
    · rw [hres] at hreason
      cases hreason
    · rw [show Memory.reallocate r₀.handle r.size t.memory = .ok h m from hgranted] at hrefused
      cases hrefused
  · obtain ⟨u, hrun, hmemory, hleads⟩ := overwrite_stored ht hi hholds.record? hk₀ hfits hk hres hsum hstore hh hbytes
      hbecomes
    exact Or.inr (Or.inr ⟨h', u, hput.trans hrun, hmemory ▸ (hreads.ok hstore).trans ht.legible, hleads⟩)

/-- A put that tears no record brings in its own record at most. -/
theorem put_sustains (hsize : r.size ≤ Block.addressable) (hk : r.key? = some k) (hspared : ¬ t.Tears k r)
    (hP : ∀ h, P { r with handle := h }) : Sustains P t (final (put k r) t) := fun ht => by
  have hbrought {h : Handle} {rs : Multiset Record} (hsub : rs ⊆ t.records) (hall : ∀ r ∈ t.records, P r) :
      ∀ r' ∈ { r with handle := h } ::ₘ rs, P r' := by
    intro r' hr'
    rcases Multiset.mem_cons.mp hr' with rfl | hr'
    · exact hP h
    · exact hall r' (hsub hr')
  by_cases hstored : ∃ r₀ ∈ t.records, r₀.key? = some k
  · obtain ⟨r₀, hr₀, hk₀⟩ := hstored
    rcases put_over_outcomes ht hr₀ hk₀ hsize hk with
      ⟨e, m, hrun, hlegible, harena⟩ | htears | ⟨h, u, hrun, hlegible, hleads⟩
    · rw [final_error hrun]
      exact sustains_of_same rfl harena (fun _ => hlegible) rfl rfl ht
    · exact absurd htears hspared
    · rw [final_ok hrun]
      exact Sustains.of_alters (fun _ => hlegible) (fun _ => hleads.alters)
        (hbrought (Multiset.filter_subset _ _)) ht
  · have hnew : ∀ r' ∈ t.records, r'.key? ≠ some k := fun r' hr' hk' => hstored ⟨r', hr', hk'⟩
    rcases put_new_outcomes ht hsize hk hnew with ⟨e, u, hrun, hu⟩ | ⟨-, h, u, hrun, hlegible, hleads⟩
    · rw [final_error hrun]
      exact Sustains.of_alters (fun _ => hu.legible) hu.alters id ht
    · rw [final_ok hrun]
      exact Sustains.of_alters (fun _ => hlegible) (fun _ => hleads.alters) (hbrought (Multiset.Subset.refl _)) ht

/-! ### Tearing down -/

theorem moves_destroy : Moves (Sustains P) destroy := fun t ht _ => by
  obtain ⟨rehash?, hfinal⟩ := final_destroy ht
  rw [hfinal]
  exact ⟨Memory.legible_releaseAll ht.legible _, 0, emptied_alters ht rehash?, fun r hr => absurd hr (Multiset.notMem_zero r)⟩

end Segment

end RecordStore
