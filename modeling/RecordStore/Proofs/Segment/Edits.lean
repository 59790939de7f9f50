import RecordStore.Proofs.Moves
import RecordStore.Proofs.Reading
import RecordStore.Proofs.Segment.Runs

/-! # Single edits

A request may evict many entries one after the other, and the table may be resized each time. What a run does to a
table, one entry at a time, is a list of edits: it leaves the same state as the run, and shows the states in between. -/

namespace RecordStore.Segment

open RecordStore.Action

variable {t : State} {k : Value}

/-- What is done to a table in one go. Each edit but a teardown is about the entry of one key. -/
inductive Edit
  | put (key : Value) (r : Record)
  | remove (key : Value)
  | evict (key : Value)
  | destroy
  | setClock (wall : Int)

namespace Edit

/-- A record is put under the key that its payload gives, and its length can be written. -/
def Admissible : Edit → Prop
  | put key r => (Request.put key r).Admissible
  | _ => True

/-- The state that an edit leaves. -/
def run : Edit → State → State
  | put key r => final (Segment.put key r)
  | remove key => final (Segment.remove key)
  | evict key => final (Segment.evict key)
  | destroy => final Segment.destroy
  | setClock wall => fun t => { t with clock := t.clock.set wall }

end Edit

/-- The state after some edits, one after the other. -/
def runEdits (es : List Edit) (t : State) : State := es.foldl (fun t e => e.run t) t

/-- The evictions of some keys. A listener that breaks ends them. -/
def evictions : List Value → State → List Edit
  | [], _ => []
  | key :: keys, t => .evict key :: match evict key t with
    | .ok _ u => evictions keys u
    | .error .. => []

/-- The edits that a request consists of. A lookup evicts what it finds to be over, a search and a sweep evict what they
    have gathered. -/
def Request.edits : Request → State → List Edit
  | put key r, _ => [.put key r]
  | contains key, _ | getRecord key, _ | get key, _ => [.evict key]
  | remove key, _ => [.remove key]
  | matching tm, t => match scan tm t.clock.now t.segment.handles [] [] t with
    | .ok (_, overdue) _ => evictions overdue t
    | .error .. => []
  | evictExpired, t => match overdueKeys t.clock.now t.segment.handles [] t with
    | .ok overdue _ => evictions overdue t
    | .error .. => []
  | destroy, _ => [.destroy]
  | setClock wall, _ => [.setClock wall]

/-- The edits that some requests consist of, one after the other. -/
def edits : List Request → State → List Edit
  | [], _ => []
  | q :: requests, t => q.edits t ++ edits requests (q.run t)

theorem runEdits_append (es es' : List Edit) (t : State) : runEdits (es ++ es') t = runEdits es' (runEdits es t) :=
  List.foldl_append

/-! ### Edits and requests -/

theorem runEdits_evictions (keys : List Value) (n : Nat) (t : State) :
    runEdits (evictions keys t) t = final (evictAll keys n) t := by
  induction keys generalizing n t with
  | nil => rfl
  | cons key keys ih =>
    rw [evictAll, final_bind]
    cases hrun : evict key t with
    | ok b u =>
      have hfirst : (Edit.evict key).run t = u := final_ok hrun
      simp only [evictions, hrun]
      show runEdits (evictions keys u) ((Edit.evict key).run t) = _
      rw [hfirst]
      cases b with
      | false => exact ih n u
      | true => exact ih (n + 1) u
    | error e u =>
      simp only [evictions, hrun]
      exact final_error hrun

theorem evict_lasting {i : Nat} {h : Handle} {r : Record} (ht : t.WellFormed) (hprobe : probe k t = .ok (.found i h) t)
    (hr : t.memory.arena.record? h = some r) (hlasts : r.isOver t.clock.now = false) : evict k t = .ok false t := by
  have hnow : now t = .ok t.clock.now t := rfl
  have hover := onMemory_read (Record.isOverAt_ok ht.steady.legible hr t.clock.now)
  simp only [evict, bind_ok hprobe, bind_ok hnow, bind_ok hover, hlasts, Bool.not_false, ↓reduceIte, pure_run]

theorem evict_absent {i : Nat} (hprobe : probe k t = .ok (.absent i) t) : evict k t = .ok false t := by
  simp only [evict, bind_ok hprobe, pure_run]

/-- A lookup changes nothing but what evicting its key changes. -/
theorem final_contains (ht : t.WellFormed) (k : Value) : final (contains k) t = final (evict k) t := by
  have hnow : now t = .ok t.clock.now t := rfl
  rcases lookup_cases ht k with ⟨i, h, r, hprobe, hr, hdue, -⟩ | ⟨i, h, r, hprobe, hr, hlasts, -⟩ | ⟨i, hprobe, -⟩
  · have hover := onMemory_read (Record.isOverAt_ok ht.steady.legible hr t.clock.now)
    have hrun : contains k t = (do let _ ← evict k; return false : Op Bool) t := by
      simp only [contains, bind_ok hprobe, bind_ok hnow, bind_ok hover, hdue, ↓reduceIte]
    rw [final, hrun]
    exact final_bind_pure (evict k) _ t
  · have hover := onMemory_read (Record.isOverAt_ok ht.steady.legible hr t.clock.now)
    have hrun : contains k t = .ok true t := by
      simp only [contains, bind_ok hprobe, bind_ok hnow, bind_ok hover, hlasts, Bool.false_eq_true, ↓reduceIte, pure_run]
    rw [final_ok hrun, final_ok (evict_lasting ht hprobe hr hlasts)]
  · have hrun : contains k t = .ok false t := by simp only [contains, bind_ok hprobe, pure_run]
    rw [final_ok hrun, final_ok (evict_absent hprobe)]

theorem final_getRecord? (ht : t.WellFormed) (k : Value) : final (getRecord? k) t = final (evict k) t := by
  have hnow : now t = .ok t.clock.now t := rfl
  rcases lookup_cases ht k with ⟨i, h, r, hprobe, hr, hdue, -⟩ | ⟨i, h, r, hprobe, hr, hlasts, -⟩ | ⟨i, hprobe, -⟩
  · have hload := onMemory_read (Record.load_ok ht.steady.legible hr)
    have hrun : getRecord? k t = (do let _ ← evict k; return none : Op (Option Record)) t := by
      simp only [getRecord?, bind_ok hprobe, bind_ok hload, bind_ok hnow, hdue, ↓reduceIte]
    rw [final, hrun]
    exact final_bind_pure (evict k) _ t
  · have hload := onMemory_read (Record.load_ok ht.steady.legible hr)
    have hrun : getRecord? k t = .ok (some r) t := by
      simp only [getRecord?, bind_ok hprobe, bind_ok hload, bind_ok hnow, hlasts, Bool.false_eq_true, ↓reduceIte, pure_run]
    rw [final_ok hrun, final_ok (evict_lasting ht hprobe hr hlasts)]
  · have hrun : getRecord? k t = .ok none t := by simp only [getRecord?, bind_ok hprobe, pure_run]
    rw [final_ok hrun, final_ok (evict_absent hprobe)]

/-- What is looked through in an orderly state is found as it is, and left as it is. -/
theorem Request.run_edits (ht : t.WellFormed) (q : Request) : runEdits (q.edits t) t = q.run t := by
  have hnow : now t = .ok t.clock.now t := rfl
  have hhandles : currentHandles t = .ok t.segment.handles t := rfl
  have hlegible := ht.steady.legible
  cases q with
  | put key r => rfl
  | contains key => exact (final_contains ht key).symm
  | getRecord key => exact (final_getRecord? ht key).symm
  | get key => exact ((final_bind_pure (getRecord? key) _ t).trans (final_getRecord? ht key)).symm
  | remove key => rfl
  | matching tm =>
    have hscan := tame_scan tm t.clock.now t.segment.handles [] [] t
    have hrun : Segment.matching tm t = (scan tm t.clock.now t.segment.handles [] [] >>= fun p => do
        let _ ← evictAll p.2 0
        return p.1 : Op (List Bytes)) t := by
      simp only [Segment.matching, bind_ok hnow, bind_ok hhandles]
    show runEdits (edits (.matching tm) t) t = final (Segment.matching tm) t
    rw [final, hrun]
    refine Eq.trans ?_ (final_bind _ _ t).symm
    cases hfound : scan tm t.clock.now t.segment.handles [] [] t with
    | ok p u =>
      obtain rfl := (hscan.ok hfound).same hlegible
      simp only [edits, hfound]
      exact (runEdits_evictions p.2 0 u).trans (final_bind_pure _ _ u).symm
    | error e u =>
      obtain rfl := (hscan.error hfound).1.same hlegible
      simp only [edits, hfound]
      rfl
  | evictExpired =>
    have hkeys := tame_overdueKeys t.clock.now t.segment.handles [] t
    have hrun : Segment.evictExpired t =
        (overdueKeys t.clock.now t.segment.handles [] >>= fun keys => evictAll keys 0) t := by
      simp only [Segment.evictExpired, bind_ok hnow, bind_ok hhandles]
    show runEdits (edits .evictExpired t) t = final Segment.evictExpired t
    rw [final, hrun]
    refine Eq.trans ?_ (final_bind _ _ t).symm
    cases hfound : overdueKeys t.clock.now t.segment.handles [] t with
    | ok keys u =>
      obtain rfl := (hkeys.ok hfound).same hlegible
      simp only [edits, hfound]
      exact runEdits_evictions keys 0 u
    | error e u =>
      obtain rfl := (hkeys.error hfound).1.same hlegible
      simp only [edits, hfound]
      rfl
  | destroy => rfl
  | setClock wall => rfl

/-- A run leaves the same state as its edits. -/
theorem run_edits (ht : t.WellFormed) {requests : List Request} (hadm : ∀ q ∈ requests, q.Admissible) :
    runEdits (edits requests t) t = run requests t := by
  induction requests generalizing t with
  | nil => rfl
  | cons q requests ih =>
    rw [edits, runEdits_append, q.run_edits ht]
    exact ih (q.run_wellFormed ht (hadm q List.mem_cons_self)) fun q' hq' => hadm q' (List.mem_cons_of_mem q hq')

/-! ### What every edit keeps -/

theorem admissible_evictions {e : Edit} {keys : List Value} (he : e ∈ evictions keys t) : e.Admissible := by
  induction keys generalizing t with
  | nil => cases he
  | cons key keys ih =>
    rcases List.mem_cons.mp he with rfl | he
    · trivial
    · split at he
      · exact ih he
      · cases he

theorem Request.admissible_edits {q : Request} {e : Edit} (hq : q.Admissible) (he : e ∈ q.edits t) : e.Admissible := by
  cases q with
  | put key r => exact List.mem_singleton.mp he ▸ hq
  | contains key | getRecord key | get key | remove key | destroy | setClock key =>
    rw [List.mem_singleton.mp he]
    trivial
  | matching tm =>
    simp only [edits] at he
    split at he
    · exact admissible_evictions he
    · cases he
  | evictExpired =>
    simp only [edits] at he
    split at he
    · exact admissible_evictions he
    · cases he

theorem admissible_edits {requests : List Request} {e : Edit} (hadm : ∀ q ∈ requests, q.Admissible)
    (he : e ∈ edits requests t) : e.Admissible := by
  induction requests generalizing t with
  | nil => cases he
  | cons q requests ih =>
    rcases List.mem_append.mp he with he | he
    · exact q.admissible_edits (hadm q List.mem_cons_self) he
    · exact ih (fun q' hq' => hadm q' (List.mem_cons_of_mem q hq')) he

theorem Edit.run_wellFormed {e : Edit} (ht : t.WellFormed) (he : e.Admissible) : (e.run t).WellFormed := by
  cases e with
  | put key r => exact Request.run_wellFormed (q := .put key r) ht he
  | remove key => exact Request.run_wellFormed (q := .remove key) ht he
  | evict key =>
    obtain ⟨b, u, hleads, -, hrun | ⟨hrun, -⟩⟩ := evict_ok ht key
    · exact hleads.final_ok hrun
    · exact hleads.final_error hrun
  | destroy => exact Request.run_wellFormed (q := .destroy) ht he
  | setClock wall => exact Request.run_wellFormed (q := .setClock wall) ht he

end RecordStore.Segment
