import RecordStore.Proofs.Moves
import RecordStore.Proofs.Store.Requests

/-! # From segments to a store

A request to a store is carried out by its segments. What each of their operations may do, the request may do, also
where it fails half-way: so what holds of a store before and after any request is shown segment by segment. -/

namespace RecordStore.Store

open RecordStore.Action

variable {α : Type} {R : Store → Store → Prop} [IsPreorder Store R] {s : Store} {g : Segment} {i : Nat} {k : Value}

/-! ### One segment -/

theorem onSegment_none (x : Segment.Op α) (hi : s.segment? i = none) :
    onSegment i x s = .error (.abort (.noSegment s.slots.size)) s := by
  simp only [onSegment, hi]

theorem onSegmentOf_none (x : Segment.Op α) (hroute : Placement.route? s.slots k = none) :
    onSegmentOf k x s = .error (.abort (.noSegment s.slots.size)) s := by
  simp only [onSegmentOf, hroute]

theorem final_onSegment (x : Segment.Op α) (hi : s.segment? i = some g) :
    final (onSegment i x) s = s.update i (final x (s.part g)) := by
  cases hx : x (s.part g) with
  | ok a u => rw [final_ok (onSegment_ok hi hx), final_ok hx]
  | error e u => rw [final_error (onSegment_error hi hx), final_error hx]

/-- What an operation of a segment makes of that segment is what becomes of the store. -/
theorem moves_onSegment {S : Segment.State → Segment.State → Prop} {x : Segment.Op α} (h : Moves S x)
    (hR : ∀ {s g u}, s.segment? i = some g → S (s.part g) u → R s (s.update i u)) : Moves R (onSegment i x) := by
  intro s
  cases hi : s.segment? i with
  | none =>
    rw [final_error (onSegment_none x hi)]
    exact refl s
  | some g =>
    rw [final_onSegment x hi]
    exact hR hi (h (s.part g))

theorem moves_onSegmentOf {x : Segment.Op α} (h : ∀ i, Moves R (onSegment i x)) : Moves R (onSegmentOf k x) := by
  intro s
  cases hroute : Placement.route? s.slots k with
  | none =>
    rw [final_error (onSegmentOf_none x hroute)]
    exact refl s
  | some i =>
    have hmoved := h i s
    unfold final at hmoved ⊢
    rw [onSegmentOf_eq x hroute]
    exact hmoved

/-! ### All segments -/

theorem moves_occupiedSlots : Moves R occupiedSlots := fun s => refl s

theorem moves_matching {tm : Template} (h : ∀ i, Moves R (onSegment i (Segment.matching tm))) :
    Moves R (matching tm) := by
  have hin (slots : List Nat) (matched : List Bytes) : Moves R (matchingIn tm slots matched) := by
    induction slots generalizing matched with
    | nil => exact Moves.pure _
    | cons i slots ih => exact (h i).bind fun more => ih (matched ++ more)
  exact moves_occupiedSlots.bind fun slots => hin slots []

theorem moves_fetch {tm : Template} (h : ∀ i, Moves R (onSegment i (Segment.matching tm))) : Moves R (fetch tm) :=
  (moves_matching h).bind fun _ => Moves.ofCodec _

theorem moves_evictExpired (h : ∀ i, Moves R (onSegment i Segment.evictExpired)) : Moves R evictExpired := by
  have hin (slots : List Nat) (evicted : Nat) : Moves R (evictIn slots evicted) := by
    induction slots generalizing evicted with
    | nil => exact Moves.pure _
    | cons i slots ih => exact (h i).bind fun more => ih (evicted + more)
  exact moves_occupiedSlots.bind fun slots => hin slots 0

theorem moves_destroy (h : ∀ i, Moves R (onSegment i Segment.destroy)) : Moves R destroy := by
  have hin (slots : List Nat) (failure? : Option Error) : Moves R (destroyIn slots failure?) := by
    induction slots generalizing failure? with
    | nil => exact Moves.pure _
    | cons i slots ih =>
      refine (h i).attempt.bind fun result => ?_
      cases result with
      | ok _ => exact ih failure?
      | error e => exact ih (some e)
  refine moves_occupiedSlots.bind fun slots => (hin slots none).bind fun failure? => ?_
  cases failure? with
  | none => exact Moves.pure _
  | some e => exact Moves.throw _

/-! ### The segment of a key -/

section Counted
variable (htally : ∀ s gets puts removes, R s (s.tally gets puts removes))
include htally

theorem moves_getRecord? (h : ∀ i, Moves R (onSegment i (Segment.getRecord? k))) : Moves R (getRecord? k) :=
  Moves.bind (fun s => htally s (s.gets + 1) s.puts s.removes) fun _ => moves_onSegmentOf h

theorem moves_get? (h : ∀ i, Moves R (onSegment i (Segment.get? k))) : Moves R (get? k) :=
  Moves.bind (fun s => htally s (s.gets + 1) s.puts s.removes) fun _ => moves_onSegmentOf h

theorem moves_getEntity? (h : ∀ i, Moves R (onSegment i (Segment.get? k))) : Moves R (getEntity? k) := by
  refine (moves_get? htally h).bind fun payload? => ?_
  cases payload? with
  | none => exact Moves.pure _
  | some payload => exact (Moves.ofCodec _).bind fun e => Moves.pure _

theorem moves_remove (h : ∀ i, Moves R (onSegment i (Segment.remove k))) : Moves R (remove k) :=
  Moves.bind (fun s => htally s s.gets s.puts (s.removes + 1)) fun _ => moves_onSegmentOf h

end Counted

/-- A put fails before it comes to a segment, or it is carried out by the segment of its key. -/
theorem put_runs (s : Store) (payload : Bytes) (ttl : Lifetime) :
    (∃ e, put payload ttl s = .error e (s.tally s.gets (s.puts + 1) s.removes)) ∨
      ∃ k i g, Payload.key payload = .ok k ∧ Placement.route? s.slots k = some i ∧ s.segment? i = some g ∧
        put payload ttl s = onSegment i (Segment.put k (Record.fresh payload ttl s.clock.now))
          (s.tally s.gets (s.puts + 1) s.removes) := by
  cases hk : Payload.key payload with
  | error fault =>
    refine Or.inl ⟨.error (.codec fault), ?_⟩
    simp only [put, modify_bind, hk]
    rfl
  | ok k =>
    cases hroute : Placement.route? s.slots k with
    | none =>
      refine Or.inl ⟨.abort (.noSegment s.slots.size), ?_⟩
      simp only [put, modify_bind, hk]
      exact onSegmentOf_none (s := s.tally s.gets (s.puts + 1) s.removes) _ hroute
    | some i =>
      have hput := put_eq s ttl hk hroute
      cases hi : s.segment? i with
      | none => exact Or.inl ⟨.abort (.noSegment s.slots.size), hput.trans (onSegment_none _ hi)⟩
      | some g => exact Or.inr ⟨k, i, g, rfl, hroute, hi, hput⟩

/-! ### Any request -/

/-- What a request is to put, if it comes to that. -/
def Request.Offers (schema : Schema) (payload : Bytes) (ttl : Lifetime) : Request → Prop
  | .put payload' ttl' => payload' = payload ∧ ttl' = ttl
  | .putEntity e lifetime? => schema.encode e = .ok payload ∧ Lifetime.ofDuration? lifetime? = .ok ttl
  | _ => False

/-- A relation that the operations of segments other than puts keep to, and figures that do not matter to it. -/
structure Bears (R : Store → Store → Prop) : Prop where
  tally : ∀ s gets puts removes, R s (s.tally gets puts removes)
  clock : ∀ (s : Store) clock, R s { s with clock }
  contains : ∀ k i, Moves R (onSegment i (Segment.contains k))
  getRecord? : ∀ k i, Moves R (onSegment i (Segment.getRecord? k))
  get? : ∀ k i, Moves R (onSegment i (Segment.get? k))
  remove : ∀ k i, Moves R (onSegment i (Segment.remove k))
  matching : ∀ tm i, Moves R (onSegment i (Segment.matching tm))
  evictExpired : ∀ i, Moves R (onSegment i Segment.evictExpired)
  destroy : ∀ i, Moves R (onSegment i Segment.destroy)

/-- Every request keeps to such a relation, or it is carried out as a put of what it offers. -/
theorem Bears.cases (h : Bears R) (q : Request) (s : Store) :
    R s (answer q s).2 ∨ ∃ payload ttl, q.Offers s.schema payload ttl ∧ (answer q s).2 = final (put payload ttl) s := by
  cases q with
  | setClock wall => exact Or.inl (h.clock s _)
  | put payload ttl => exact Or.inr ⟨payload, ttl, ⟨rfl, rfl⟩, respond_snd ..⟩
  | putEntity e lifetime? =>
    rw [Store.answer, respond_snd]
    rcases putEntity_cases s e lifetime? with ⟨fault, -, hrun⟩ | ⟨ttl, fault, -, -, hrun⟩ | ⟨ttl, payload, hl, he, hrun⟩
    · exact Or.inl (by rw [final_error hrun]; exact refl s)
    · exact Or.inl (by rw [final_error hrun]; exact refl s)
    · exact Or.inr ⟨payload, ttl, ⟨he, hl⟩, by rw [final, hrun]; rfl⟩
  | contains key =>
    rw [Store.answer, respond_snd]
    exact Or.inl (moves_onSegmentOf (h.contains key) s)
  | getRecord key =>
    rw [Store.answer, respond_snd]
    exact Or.inl (moves_getRecord? h.tally (h.getRecord? key) s)
  | get key =>
    rw [Store.answer, respond_snd]
    exact Or.inl (moves_get? h.tally (h.get? key) s)
  | getEntity key =>
    rw [Store.answer, respond_snd]
    exact Or.inl (moves_getEntity? h.tally (h.get? key) s)
  | remove key =>
    rw [Store.answer, respond_snd]
    exact Or.inl (moves_remove h.tally (h.remove key) s)
  | matching tm =>
    rw [Store.answer, respond_snd]
    exact Or.inl (moves_matching (h.matching tm) s)
  | fetch tm =>
    rw [Store.answer, respond_snd]
    exact Or.inl (moves_fetch (h.matching tm) s)
  | evictExpired =>
    rw [Store.answer, respond_snd]
    exact Or.inl (moves_evictExpired h.evictExpired s)
  | destroy =>
    rw [Store.answer, respond_snd]
    exact Or.inl (moves_destroy h.destroy s)

/-- Every request keeps to such a relation if what it puts does. -/
theorem Bears.answer (h : Bears R) {q : Request}
    (hput : ∀ payload ttl, q.Offers s.schema payload ttl → R s (final (put payload ttl) s)) :
    R s (answer q s).2 := by
  rcases h.cases q s with hmoved | ⟨payload, ttl, hoffers, hrun⟩
  · exact hmoved
  · rw [hrun]
    exact hput payload ttl hoffers

end RecordStore.Store
