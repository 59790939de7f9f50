import RecordStore.Proofs.Store.FailingCalls
import RecordStore.Proofs.Twins.Segment

/-! # Twin stores

Two stores with twin segments in the same slots answer every request alike, also while calls fail, and are twins
afterwards. Only the handles that some errors name tell them apart. -/

namespace RecordStore.Store

open RecordStore.Action

variable {p p' : Nat} {α α' : Type} {A : α → α' → Prop} {s s' : Store} {k : Value}

/-- Twin segments in the same slots. How often entries were asked for, put and removed may differ. -/
structure Twins (p p' : Nat) (s s' : Store) : Prop where
  shared : s.toShared.Twins p p' s'.toShared
  schema : s.schema = s'.schema
  slots : Matched (Segment.Twins p p') s.slots s'.slots
  segmentCount : s.segmentCount = s'.segmentCount

namespace Twins

theorem withFaults (hs : s.Twins p p' s') (f : Faults) : (s.withFaults f).Twins p p' (s'.withFaults f) :=
  ⟨{ hs.shared with memory := ⟨hs.shared.memory.arena, rfl⟩ }, hs.schema, hs.slots, hs.segmentCount⟩

theorem setClock (hs : s.Twins p p' s') (wall : Int) :
    Twins p p' { s with clock := s.clock.set wall } { s' with clock := s'.clock.set wall } :=
  ⟨{ hs.shared with clock := rfl }, hs.schema, hs.slots, hs.segmentCount⟩

theorem tally (hs : s.Twins p p' s') (gets puts removes gets' puts' removes' : Nat) :
    (s.tally gets puts removes).Twins p p' (s'.tally gets' puts' removes') :=
  ⟨hs.shared, hs.schema, hs.slots, hs.segmentCount⟩

theorem isTaken (hs : s.Twins p p' s') : Placement.isTaken s.slots = Placement.isTaken s'.slots := by
  funext i
  have hnone := hs.slots.isNone_eq i
  rw [← Option.not_isSome, ← Option.not_isSome] at hnone
  exact Bool.not_inj hnone

theorem route? (hs : s.Twins p p' s') (k : Value) : Placement.route? s.slots k = Placement.route? s'.slots k := by
  rw [Placement.route?, Placement.route?, hs.isTaken, hs.slots.size_eq]

theorem size (hs : s.Twins p p' s') : s.size = s'.size := by
  obtain ⟨expired, rehash?, hc⟩ := hs.shared.counters
  rw [Store.size, Store.size, hc]
  rfl

theorem bytesUsed (hs : s.Twins p p' s') : s.bytesUsed = s'.bytesUsed := by
  obtain ⟨expired, rehash?, hc⟩ := hs.shared.counters
  rw [Store.bytesUsed, Store.bytesUsed, hc]
  rfl

theorem summary (hs : s.Twins p p' s') : s.summary = s'.summary := by
  unfold Store.summary
  rw [hs.schema, hs.segmentCount, hs.size, hs.bytesUsed]

end Twins

/-! ### One segment -/

theorem onSegment_inStep {x : Segment.Op α} {x' : Segment.Op α'} (hx : InStep (Segment.State.Twins p p') A x x')
    (i : Nat) : InStep (Twins p p') A (onSegment i x) (onSegment i x') := by
  intro s s' hs
  have hslot : Option.Rel (Segment.Twins p p') (s.segment? i) (s'.segment? i) := hs.slots.occupant? i
  cases hi : s.segment? i with
  | none =>
    cases hi' : s'.segment? i with
    | none =>
      rw [onSegment_none x hi, onSegment_none x' hi', hs.slots.size_eq]
      exact .error rfl hs
    | some g' =>
      rw [hi, hi'] at hslot
      cases hslot
  | some g =>
    cases hi' : s'.segment? i with
    | none =>
      rw [hi, hi'] at hslot
      cases hslot
    | some g' =>
      rw [hi, hi'] at hslot
      cases hslot with | some hg =>
      have hupdate {u u' : Segment.State} (hu : u.Twins p p' u') : (s.update i u).Twins p p' (s'.update i u') :=
        ⟨hu.shared, hs.schema, hs.slots.setIfInBounds i (.some hu.segment), hs.segmentCount⟩
      rcases hx.cases (show (s.part g).Twins p p' (s'.part g') from ⟨hs.shared, hg⟩) with
        ⟨a, a', u, u', hrun, hrun', ha, hu⟩ | ⟨e, e', u, u', hrun, hrun', he, hu⟩
      · rw [onSegment_ok hi hrun, onSegment_ok hi' hrun']
        exact .ok ha (hupdate hu)
      · rw [onSegment_error hi hrun, onSegment_error hi' hrun']
        exact .error he (hupdate hu)

theorem onSegmentOf_inStep {x : Segment.Op α} {x' : Segment.Op α'} (hx : InStep (Segment.State.Twins p p') A x x')
    (k : Value) : InStep (Twins p p') A (onSegmentOf k x) (onSegmentOf k x') := by
  intro s s' hs
  unfold onSegmentOf
  rw [← hs.route? k, ← hs.slots.size_eq]
  cases Placement.route? s.slots k with
  | none => exact .error rfl hs
  | some i => exact onSegment_inStep hx i s s' hs

theorem occupiedSlots_inStep : InStep (Twins p p') Eq occupiedSlots occupiedSlots := by
  intro s s' hs
  unfold occupiedSlots Placement.occupied
  rw [← hs.isTaken, ← hs.slots.size_eq]
  exact .ok rfl hs

/-! ### Entries -/

theorem put_inStep (payload : Bytes) (ttl : Lifetime) : InStep (Twins p p') Eq (put payload ttl) (put payload ttl) := by
  refine InStep.bind_same (fun s s' hs => .ok rfl (hs.tally ..)) fun _ => (InStep.ofCodec _).bind_same fun k => ?_
  refine InStep.bind (A := Twins p p') (fun s s' hs => .ok hs hs) fun s s' hs => ?_
  rw [hs.shared.clock]
  exact onSegmentOf_inStep (Segment.put_inStep k _) k

theorem putEntity_inStep (e : Entity) (lifetime? : Option Duration) :
    InStep (Twins p p') Eq (putEntity e lifetime?) (putEntity e lifetime?) := by
  refine InStep.bind_same ?_ fun ttl => ?_
  · cases (Lifetime.ofDuration? lifetime?).mapError Error.invalidArgument with
    | ok ttl => exact .pure rfl
    | error e => exact .fail rfl
  · refine InStep.bind (A := Twins p p') (fun s s' hs => .ok hs hs) fun s s' hs => ?_
    rw [hs.schema]
    exact (InStep.ofCodec _).bind_same fun payload => put_inStep payload ttl

theorem contains_inStep (k : Value) : InStep (Twins p p') Eq (contains k) (contains k) :=
  onSegmentOf_inStep (Segment.contains_inStep k) k

theorem getRecord?_inStep (k : Value) :
    InStep (Twins p p') (Option.Rel (Record.Twin p p')) (getRecord? k) (getRecord? k) :=
  InStep.bind_same (fun _ _ hs => .ok rfl (hs.tally ..)) fun _ => onSegmentOf_inStep (Segment.getRecord?_inStep k) k

theorem get?_inStep (k : Value) : InStep (Twins p p') Eq (get? k) (get? k) :=
  InStep.bind_same (fun _ _ hs => .ok rfl (hs.tally ..)) fun _ => onSegmentOf_inStep (Segment.get?_inStep k) k

theorem getEntity?_inStep (k : Value) : InStep (Twins p p') Eq (getEntity? k) (getEntity? k) := by
  refine (get?_inStep k).bind_same fun payload? => ?_
  cases payload? with
  | none => exact .pure rfl
  | some payload => exact (InStep.ofCodec _).bind_same fun e => .pure rfl

theorem remove_inStep (k : Value) : InStep (Twins p p') Eq (remove k) (remove k) :=
  InStep.bind_same (fun _ _ hs => .ok rfl (hs.tally ..)) fun _ => onSegmentOf_inStep (Segment.remove_inStep k) k

/-! ### All entries -/

theorem matching_inStep (tm : Template) : InStep (Twins p p') Eq (matching tm) (matching tm) := by
  have hin (slots : List Nat) (matched : List Bytes) :
      InStep (Twins p p') Eq (matchingIn tm slots matched) (matchingIn tm slots matched) := by
    induction slots generalizing matched with
    | nil => exact .pure rfl
    | cons i slots ih => exact (onSegment_inStep (Segment.matching_inStep tm) i).bind_same fun more => ih (matched ++ more)
  exact occupiedSlots_inStep.bind_same fun slots => hin slots []

theorem fetch_inStep (tm : Template) : InStep (Twins p p') Eq (fetch tm) (fetch tm) :=
  (matching_inStep tm).bind_same fun _ => .ofCodec _

theorem evictExpired_inStep : InStep (Twins p p') Eq evictExpired evictExpired := by
  have hin (slots : List Nat) (evicted : Nat) :
      InStep (Twins p p') Eq (evictIn slots evicted) (evictIn slots evicted) := by
    induction slots generalizing evicted with
    | nil => exact .pure rfl
    | cons i slots ih => exact (onSegment_inStep Segment.evictExpired_inStep i).bind_same fun more => ih (evicted + more)
  exact occupiedSlots_inStep.bind_same fun slots => hin slots 0

theorem destroy_inStep : InStep (Twins p p') Eq destroy destroy := by
  have hin (slots : List Nat) {failure? failure?' : Option Error}
      (hfailure : Option.Rel (fun e e' => e.unnamed = e'.unnamed) failure? failure?') :
      InStep (Twins p p') (Option.Rel fun e e' => e.unnamed = e'.unnamed) (destroyIn slots failure?)
        (destroyIn slots failure?') := by
    induction slots generalizing failure? failure?' with
    | nil => exact .pure hfailure
    | cons i slots ih =>
      refine (onSegment_inStep Segment.destroy_inStep i).attempt.bind fun result result' hresult => ?_
      cases hresult with
      | ok _ => exact ih hfailure
      | error he => exact ih (.some he)
  refine occupiedSlots_inStep.bind_same fun slots => (hin slots .none).bind fun e? e?' he => ?_
  cases he with
  | none => exact .pure rfl
  | some he => exact .fail he

/-! ### Requests -/

/-- A response without the handle that its error names. -/
def Response.unnamed : Response → Response
  | .failed e => .failed e.unnamed
  | response => response

theorem respond_twins {reply : α → Response} {reply' : α' → Response} {x : Op α} {x' : Op α'}
    (hx : InStep (Twins p p') A x x') (hreply : ∀ a a', A a a' → (reply a).unnamed = (reply' a').unnamed)
    (hs : s.Twins p p' s') :
    (respond reply x s).1.unnamed = (respond reply' x' s').1.unnamed ∧
      (respond reply x s).2.Twins p p' (respond reply' x' s').2 := by
  rcases hx.cases hs with ⟨a, a', t, t', hrun, hrun', ha, ht⟩ | ⟨e, e', t, t', hrun, hrun', he, ht⟩
  · rw [respond_ok hrun, respond_ok hrun']
    exact ⟨hreply a a' ha, ht⟩
  · rw [respond_error hrun, respond_error hrun']
    exact ⟨congrArg Response.failed he, ht⟩

/-- Twins answer a request alike and stay twins. -/
theorem Twins.answer (hs : s.Twins p p' s') (q : Request) :
    (Store.answer q s).1.unnamed = (Store.answer q s').1.unnamed ∧
      (Store.answer q s).2.Twins p p' (Store.answer q s').2 := by
  have hsame {β : Type} {x : Op β} (reply : β → Response) (hx : InStep (Twins p p') Eq x x) :
      (respond reply x s).1.unnamed = (respond reply x s').1.unnamed ∧
        (respond reply x s).2.Twins p p' (respond reply x s').2 :=
    respond_twins hx (fun _ _ ha => ha ▸ rfl) hs
  cases q with
  | put payload ttl => exact hsame _ (put_inStep payload ttl)
  | putEntity e lifetime? => exact hsame _ (putEntity_inStep e lifetime?)
  | contains k => exact hsame _ (contains_inStep k)
  | getRecord k =>
    refine respond_twins (getRecord?_inStep k) (fun r? r?' hr => ?_) hs
    cases hr with
    | none => rfl
    | some hr => rw [Option.map_some, Option.map_some, Record.entry, Record.entry, hr.payload, hr.createdAt, hr.ttl]
  | get k => exact hsame _ (get?_inStep k)
  | getEntity k => exact hsame _ (getEntity?_inStep k)
  | remove k => exact hsame _ (remove_inStep k)
  | matching tm => exact hsame _ (matching_inStep tm)
  | fetch tm => exact hsame _ (fetch_inStep tm)
  | evictExpired => exact hsame _ evictExpired_inStep
  | destroy => exact hsame _ destroy_inStep
  | setClock wall => exact ⟨rfl, hs.setClock wall⟩

theorem Twins.trial (hs : s.Twins p p' s') (x : Trial) : (x.run s).Twins p p' (x.run s') := by
  cases x with
  | ask q => exact (hs.answer q).2
  | plan f => exact hs.withFaults f

/-- Twins stay twins, whatever they go through. -/
theorem Twins.endure (hs : s.Twins p p' s') (trials : List Trial) :
    (Store.endure trials s).Twins p p' (Store.endure trials s') := by
  induction trials generalizing s s' with
  | nil => exact hs
  | cons x trials ih => exact ih (hs.trial x)

end RecordStore.Store
