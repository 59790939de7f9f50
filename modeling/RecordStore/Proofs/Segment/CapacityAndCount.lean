import RecordStore.Proofs.Segment.Rearranging
import RecordStore.Proofs.Table.Levels
import RecordStore.Proofs.Table.Slots

/-! # Slots and entries of a segment

What an operation on a segment does to the number of its slots and of its entries, whatever fails on the way: a put that
stores a new entry makes room for it first, a removal gives room back, and nothing else changes either number. -/

namespace RecordStore.Segment

open RecordStore.Action

variable {α : Type} {t u : State} {i : Nat} {h : Handle}

/-- The table has as many slots as before, and as many of them are taken. -/
def Levelled (t u : State) : Prop := u.segment.level = t.segment.level

instance : IsPreorder State Levelled where
  refl _ := rfl
  trans _ _ _ h₁ h₂ := Eq.trans h₂ h₁

theorem Unwritten.levelled (h : Unwritten t u) : Levelled t u := by
  obtain ⟨m, -, rfl⟩ := h
  rfl

theorem levelled_of_unwritten {x : Op α} (h : Moves Unwritten x) : Moves Levelled x := h.mono fun _ _ => Unwritten.levelled

/-! ### Parts of the state -/

theorem levelled_onMemory (x : Action Memory α) : Moves Levelled (onMemory x) := fun t => by
  rw [final_onMemory]
  rfl

theorem levelled_onNotifier (x : Action Notifier α) : Moves Levelled (onNotifier x) := fun t => by
  rw [final_onNotifier]
  rfl

theorem levelled_onCounters (x : Action Counters α) : Moves Levelled (onCounters x) := fun t => by
  rw [final_onCounters]
  rfl

theorem levelled_modifyCounters (f : Counters → Counters) : Moves Levelled (modifyCounters f) := fun _ => rfl

theorem level_setSlot (s : Segment) (i : Nat) (h? : Option Handle) : (s.setSlot i h?).level = s.level := by
  unfold level capacity setSlot
  rw [Array.size_setIfInBounds]

theorem levelled_setSlot (i : Nat) (h? : Option Handle) : Moves Levelled (modifySegment (·.setSlot i h?)) := fun t =>
  level_setSlot t.segment i h?

/-! ### The table -/

theorem levelled_place (k : Value) (h : Handle) : Moves Levelled (place k h) := moves_place levelled_setSlot k h

theorem levelled_backShift (vacated : Nat) : Moves Levelled (backShift vacated) :=
  moves_backShift levelled_setSlot Unwritten.levelled vacated

theorem size_placeAll (t : State) (hs : List Handle) (slots : Slots) :
    Yields (placeAll hs slots) t (fun slots' u => Levelled t u ∧ slots'.size = slots.size) fun _ u => Levelled t u := by
  induction hs generalizing t slots with
  | nil => exact ⟨refl t, rfl⟩
  | cons h hs ih =>
    refine .bind (((levelled_of_unwritten (tame_keyAt h).moves).yields t).mono (fun k u hu => ?_) fun _ _ hu => hu)
    cases freeSlot? slots k with
    | none => exact hu
    | some i =>
      refine (ih u _).mono (fun slots' v hv => ?_) fun _ v hv => IsTrans.trans _ _ _ hu hv
      rw [Array.size_setIfInBounds] at hv
      exact ⟨IsTrans.trans _ _ _ hu hv.1, hv.2⟩

theorem level_resize (t : State) (capacity : Nat) :
    Yields (resize capacity) t (fun _ u => u.segment.level = { t.segment.level with capacity })
      fun _ u => Levelled t u := by
  have hcurrent : currentHandles t = .ok t.segment.handles t := rfl
  refine .of_eq (bind_ok hcurrent) (.bind ((size_placeAll t _ _).mono (fun slots u hu => ?_) fun _ _ hu => hu))
  obtain ⟨hlevel, hsize⟩ := hu
  rw [Array.size_replicate] at hsize
  show (⟨slots.size, u.segment.count, u.segment.minCapacity⟩ : Level) = _
  rw [hsize, ← hlevel]
  rfl

/-! ### Storing -/

/-- Once there is room, an entry is stored and counted, or the table stays as large and as full as it is. -/
theorem level_fill (t : State) (k : Value) (r : Record) :
    Yields (do
      let r ← onMemory r.store
      place k r.handle
      modifySegment fun s => { s with count := s.count + 1 } : Op Unit) t
      (fun _ u => u.segment.level = { t.segment.level with count := t.segment.level.count + 1 })
      fun _ u => Levelled t u := by
  refine .bind (((levelled_onMemory r.store).yields t).mono (fun r u hu => ?_) fun _ _ hu => hu)
  refine .bind (((levelled_place k r.handle).yields u).mono (fun _ v hv => ?_) fun _ v hv => IsTrans.trans _ _ _ hu hv)
  have htv : Levelled t v := IsTrans.trans _ _ _ hu hv
  show (⟨v.segment.capacity, v.segment.count + 1, v.segment.minCapacity⟩ : Level) = _
  rw [← htv]
  rfl

theorem level_insert (t : State) (k : Value) (r : Record) :
    Yields (insert k r) t
      (fun _ u => u.segment.level = { t.segment.level.grown with count := t.segment.level.count + 1 })
      fun _ u => Levelled t u ∨ u.segment.level = t.segment.level.grown := by
  refine .get_bind ?_
  dsimp only
  split
  · rename_i hgrow
    have hgrown : t.segment.level.grown = { t.segment.level with capacity := t.segment.capacity * 2 } :=
      if_pos (of_decide_eq_true hgrow)
    rw [hgrown]
    refine .bind ((level_resize t _).mono (fun _ u hu => ?_) fun _ _ hu => Or.inl hu)
    refine (level_fill u k r).mono (fun _ v hv => ?_) fun _ v hv => Or.inr (Eq.trans hv hu)
    rw [hv, hu]
  · rename_i hroom
    have hgrown : t.segment.level.grown = t.segment.level :=
      if_neg (of_decide_eq_false (Bool.eq_false_of_not_eq_true hroom))
    rw [hgrown]
    exact (level_fill t k r).mono (fun _ _ hu => hu) fun _ _ hu => Or.inl hu

theorem levelled_overwrite (i : Nat) (old : Handle) (previous : Nat) (r : Record) :
    Moves Levelled (overwrite i old previous r) := by
  refine Moves.bind (moves_reserve fun _ _ _ _ => rfl) fun _ => (levelled_onMemory _).attempt.bind fun result => ?_
  cases result with
  | ok r => exact (levelled_setSlot i _).bind fun _ => Moves.pure _
  | error e => exact (levelled_modifyCounters _).bind fun _ => Moves.throw _

/-- A put stores a new entry, or has made room for one, or has changed neither number. -/
theorem step_put (t : State) (k : Value) (r : Record) : t.segment.level.Step (final (put k r) t).segment.level := by
  have hidle {u : State} (hu : Levelled t u) : t.segment.level.Step u.segment.level := hu ▸ .idle
  refine Yields.final (P := fun u : State => t.segment.level.Step u.segment.level) (.bind ?_)
  refine ((levelled_of_unwritten (moves_probe k)).yields t).mono (fun found v hv => ?_) fun _ _ hu => hidle hu
  cases found with
  | found i old =>
    have hover : Moves Levelled (do
        let previous ← onMemory (Record.sizeAt old)
        overwrite i old previous r : Op Nat) :=
      (levelled_onMemory _).bind fun previous => levelled_overwrite i old previous r
    exact (hover.yields v).mono (fun _ _ hu => hidle (IsTrans.trans _ _ _ hv hu))
      fun _ _ hu => hidle (IsTrans.trans _ _ _ hv hu)
  | absent i =>
    refine .bind (((moves_reserve (R := Levelled) fun _ _ _ _ => rfl).yields v).mono (fun items w hw => ?_)
      fun _ _ hu => hidle (IsTrans.trans _ _ _ hv hu))
    have htw : Levelled t w := IsTrans.trans _ _ _ hv hw
    have hinsert := level_insert w k r
    rw [htw] at hinsert
    refine .bind (.attempt (hinsert.mono (fun _ u hu => ?_) fun e u hu => ?_))
    · show t.segment.level.Step u.segment.level
      rw [hu]
      exact .stored
    · have hstep : t.segment.level.Step u.segment.level := by
        rcases hu with hu | hu
        · exact hidle (IsTrans.trans _ _ _ htw hu)
        · rw [hu]
          exact .refused
      cases e with
      | error e => exact hstep
      | abort a => exact hstep

/-! ### Removing -/

/-- A removal that succeeds takes one entry off, and gives room back if too little of it is taken. -/
theorem level_removeAt (t : State) (i : Nat) (h : Handle) :
    Yields (removeAt i h) t
      (fun _ u => u.segment.level = Level.shrunk { t.segment.level with count := t.segment.level.count - 1 })
      fun _ _ => True := by
  have hlevelled {α β : Type} {Q : β → State → Prop} {x : Op α} {f : α → Op β} {v : State} {l : Level}
      (hx : Moves Levelled x) (hv : v.segment.level = l)
      (hf : ∀ a u, u.segment.level = l → Yields (f a) u Q fun _ _ => True) : Yields (x >>= f) v Q fun _ _ => True :=
    .bind ((hx.yields v).mono (fun a u (hu : u.segment.level = v.segment.level) => hf a u (hu.trans hv))
      fun _ _ _ => trivial)
  refine hlevelled (levelled_onMemory _) rfl fun freed t₁ h₁ => ?_
  refine hlevelled (levelled_onMemory _) h₁ fun ttl t₂ h₂ => ?_
  refine hlevelled (levelled_onMemory _) h₂ fun _ t₃ h₃ => ?_
  have hcleared : modifySegment (fun s => { s.setSlot i none with count := s.count - 1 }) t₃ =
      .ok () { t₃ with segment := { t₃.segment.setSlot i none with count := t₃.segment.count - 1 } } := rfl
  refine .of_eq (bind_ok hcleared) ?_
  refine hlevelled (l := { t.segment.level with count := t.segment.level.count - 1 }) (levelled_onCounters _) ?_
    fun _ t₄ h₄ => ?_
  · rw [← h₃, ← level_setSlot t₃.segment i none]
    rfl
  refine hlevelled (levelled_backShift i) h₄ fun _ t₅ h₅ => .get_bind ?_
  dsimp only
  rw [← h₅]
  split
  · rename_i hshrink
    simp only [mustShrink, Bool.and_eq_true, decide_eq_true_eq] at hshrink
    refine .bind ((level_resize t₅ _).mono (fun _ u hu => ?_) fun _ _ _ => trivial)
    show u.segment.level = _
    rw [hu, Level.shrunk, if_pos (show 0 < t₅.segment.level.count ∧ _ from ⟨hshrink.1.1, hshrink.1.2, hshrink.2⟩)]
    rfl
  · rename_i hstays
    simp only [mustShrink, Bool.and_eq_true, decide_eq_true_eq] at hstays
    show t₅.segment.level = _
    rw [Level.shrunk, if_neg fun hshrink => hstays ⟨⟨hshrink.1, hshrink.2.1⟩, hshrink.2.2⟩]

end RecordStore.Segment
