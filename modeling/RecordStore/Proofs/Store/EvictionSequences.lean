import RecordStore.Proofs.Segment.SingleEviction
import RecordStore.Proofs.Store.FailingCalls
import RecordStore.Proofs.Store.Querying

/-! # Evictions in the course of a request

Lookups, searches and sweeps evict one record after the other. Each eviction is carried out to its end before the next
one begins, so wherever the request stops, on a refused release, on the listener or on a payload that cannot be
compared, some of the records are gone as if there had been no others, and nothing has happened to the rest. -/

namespace RecordStore.Store

open RecordStore.Action

variable {α β : Type} {s s' s'' : Store} {g : Segment} {i : Nat} {k : Value} {gone gone' : List Record} {bad : Prop}
  {p q : Record → Prop} [DecidablePred p] [DecidablePred q]

/-! ### Records that go -/

/-- From `s` to `s'` records have gone one after the other, and their blocks were given back. -/
structure Frees (s s' : Store) (gone : List Record) : Prop where
  leads : Leads (s.withFaults .never) (s'.withFaults .never) s'.records
  split : s'.records + ↑gone = s.records
  memory : s'.memory = s.memory.releaseAll (gone.map (·.handle))
  granted : Memory.refused (gone.map (·.handle)) s.memory.faults = []

namespace Frees

theorem refl (hs : s.Orderly) : Frees s s [] := ⟨Leads.refl hs.wellFormed, add_zero _, rfl, rfl⟩

theorem tally (hs : s.Orderly) (gets puts removes : Nat) : Frees s (s.tally gets puts removes) [] :=
  { refl hs with leads := leads_tally hs.wellFormed gets puts removes }

theorem clock (h : Frees s s' gone) : s'.clock = s.clock := h.leads.keeps.clock

theorem faults (h : Frees s s' gone) : s'.memory.faults = s.memory.faults.passes .release gone.length := by
  rw [h.memory, Memory.faults_releaseAll, List.length_map]

theorem unplanned (h : Frees s s' gone) (hplan : s.memory.faults.release = []) : s'.memory.faults = s.memory.faults := by
  rw [h.faults, Faults.passes_unplanned (c := .release) hplan]

/-- If one release is to fail, it was not among those. -/
theorem release_left {n : Nat} (h : Frees s s' gone) (hgap : s.memory.faults.release = [n]) :
    gone.length ≤ n ∧ s'.memory.faults.release = [n - gone.length] := by
  have hleft := Memory.release_passes hgap h.granted
  rwa [List.length_map, ← h.faults] at hleft

theorem orderly (h : Frees s s' gone) (hs : s.Orderly) : s'.Orderly :=
  ⟨h.memory ▸ Memory.legible_releaseAll hs.legible _, h.leads.wellFormed⟩

theorem le (h : Frees s s' gone) : (gone : Multiset Record) ≤ s.records := h.split ▸ Multiset.le_add_left _ _

/-- Just the blocks of those that have gone are given back. -/
theorem block? (h : Frees s s' gone) (hs : s.Orderly) (b : Handle) : s'.memory.arena.block? b =
    if b ∈ gone.map (·.handle) then none else s.memory.arena.block? b := by
  rw [h.memory, (Memory.becomes_releaseAll s.memory (nodup_blocks hs.wellFormed h.le)).block?, h.granted]
  simp only [List.not_mem_nil, not_false_eq_true, and_true]

theorem trans (h₁ : Frees s s' gone) (h₂ : Frees s' s'' gone') : Frees s s'' (gone ++ gone') where
  leads := h₁.leads.trans h₂.leads
  split := by rw [← Multiset.coe_add, add_comm (gone : Multiset Record), ← add_assoc, h₂.split, h₁.split]
  memory := by rw [h₂.memory, h₁.memory, List.map_append, Memory.releaseAll_append]
  granted := by
    have hgranted := h₂.granted
    rw [h₁.faults] at hgranted
    rw [List.map_append, Memory.refused_append, h₁.granted, List.length_map, hgranted]
    rfl

theorem place? (h : Frees s s' gone) : s'.place? = s.place? := funext fun r => h.leads.keeps.place? r

theorem occupied (h : Frees s s' gone) (hi : (s.segment? i).isSome) : (s'.segment? i).isSome :=
  have hkept : ((s'.withFaults .never).segment? i).isSome := h.leads.segment hi
  hkept

/-- If those that have gone were over, the others that were over still are. -/
theorem overdue (h : Frees s s' gone) (hdue : ∀ r ∈ gone, r.isOver s.clock.now) : ↑gone + s'.overdue = s.overdue := by
  rw [Store.overdue, Store.overdue, h.clock, ← h.split, Multiset.filter_add, add_comm]
  exact congrArg _ (Multiset.filter_eq_self.mpr hdue).symm

theorem unexpired (h : Frees s s' gone) (hdue : ∀ r ∈ gone, r.isOver s.clock.now) : s'.unexpired = s.unexpired := by
  have hnone : (gone : Multiset Record).filter (fun r => ¬ r.isOver s.clock.now) = 0 :=
    Multiset.filter_eq_nil.mpr fun r hr => not_not.mpr (hdue r hr)
  rw [Store.unexpired, Store.unexpired, h.clock, ← h.split, Multiset.filter_add, hnone, add_zero]

/-- What goes from one segment goes from the store. -/
theorem of_part {u : Segment.State} {r : Record} (hs : s.Orderly) (hi : s.segment? i = some g)
    (h : Segment.Frees (s.part g) u r) : Frees s (s.update i u) [r] := by
  have hall : (s.withFaults .never).records = (s.part g).records + s.records.filter (s.place? · ≠ some i) := by
    rw [records_eq (s := s.withFaults .never) hi]
    exact congrArg _ (records_part hs.wellFormed hi).2
  have hmine : ∀ r' ∈ u.records, s.place? r' = some i := fun r' hr' =>
    place?_of_mem_part (s := s.withFaults .never) hs.wellFormed hi (h.split.symm ▸ Multiset.mem_cons_of_mem hr')
  have hleads := leads_update (s := s.withFaults .never) hs.wellFormed hi h.leads hmine
  have hrecords : (s.update i u).records = u.records + s.records.filter (s.place? · ≠ some i) := hleads.records
  refine ⟨hrecords ▸ hleads, ?_, h.memory, ?_⟩
  · rw [hrecords, Multiset.coe_singleton, add_comm, ← add_assoc, Multiset.singleton_add, ← h.split]
    exact hall.symm
  · have hgranted : s.memory.faults.isDue .release = false := h.granted
    simp only [List.map_cons, List.map_nil, Memory.refused, hgranted, Bool.false_eq_true, ↓reduceIte]

end Frees

/-- From `s` to `s'` records that were over have been evicted one after the other: they have gone, they were counted,
    and their notices were handed to the notifier, whatever came of that. -/
structure Retires (s s' : Store) (gone : List Record) : Prop extends Frees s s' gone where
  due : ∀ r ∈ gone, r.isOver s.clock.now
  expired : s'.counters.expired = s.counters.expired + gone.length
  notifier : s'.notifier = s.notifier.notifyAll (gone.map Record.notice)

namespace Retires

theorem refl (hs : s.Orderly) : Retires s s [] :=
  { Frees.refl hs with
    due := fun _ hr => absurd hr List.not_mem_nil
    expired := rfl
    notifier := rfl }

theorem tally (hs : s.Orderly) (gets puts removes : Nat) : Retires s (s.tally gets puts removes) [] :=
  { refl hs with toFrees := Frees.tally hs gets puts removes }

theorem trans (h₁ : Retires s s' gone) (h₂ : Retires s' s'' gone') : Retires s s'' (gone ++ gone') where
  toFrees := h₁.toFrees.trans h₂.toFrees
  due r hr := by
    rcases List.mem_append.mp hr with hr | hr
    · exact h₁.due r hr
    · rw [← h₁.clock]
      exact h₂.due r hr
  expired := by rw [h₂.expired, h₁.expired, List.length_append, Nat.add_assoc]
  notifier := by rw [h₂.notifier, h₁.notifier, List.map_append, Notifier.notifyAll_append]

/-- What is still to go of one kind or another, once all of the first kind have gone. -/
theorem filter_or (h : Retires s s' gone) (hgone : (gone : Multiset Record) = s.overdue.filter p) :
    s.overdue.filter (fun r => p r ∨ q r) = ↑gone + s'.overdue.filter q := by
  have hkind : ∀ r ∈ (gone : Multiset Record), p r := by
    intro r hr
    rw [hgone] at hr
    exact (Multiset.mem_filter.mp hr).2
  have hnone : s'.overdue.filter p = 0 := by
    rw [← h.overdue h.due, Multiset.filter_add, Multiset.filter_eq_self.mpr hkind] at hgone
    exact left_eq_add.mp hgone
  rw [← h.overdue h.due, Multiset.filter_add, Multiset.filter_eq_self.mpr fun r hr => Or.inl (hkind r hr)]
  refine congrArg _ (Multiset.filter_congr fun r hr => or_iff_right fun hp => ?_)
  exact Multiset.notMem_zero r (hnone ▸ Multiset.mem_filter.mpr ⟨hr, hp⟩)

/-- What one segment evicts is evicted from the store. -/
theorem of_part {u : Segment.State} {r : Record} (hs : s.Orderly) (hi : s.segment? i = some g)
    (h : Segment.Drops (s.part g) u r) : Retires s (s.update i u) [r] where
  toFrees := Frees.of_part hs hi h.toFrees
  due r' hr' := by
    rw [List.mem_singleton.mp hr']
    exact h.due
  expired := h.expired
  notifier := h.notifier

end Retires

/-! ### The course of an operation -/

/-- How an operation ends that evicts the records of a kind that are over, one after the other: all of them are gone, or
    the release of the next one was refused, or the listener broke on the last one, or a payload stopped it. -/
inductive Course (bad : Prop) (p : Record → Prop) [DecidablePred p] (s : Store) : EStateM.Result Failure Store α → Prop
  | finishes {a : α} {s' : Store} {gone : List Record} (retires : Retires s s' gone)
      (told : s'.notifier.lost = s.notifier.lost) (all : (gone : Multiset Record) = s.overdue.filter p) :
      Course bad p s (.ok a s')
  | refused {s' : Store} {gone : List Record} {r : Record} (retires : Retires s s' gone)
      (told : s'.notifier.lost = s.notifier.lost) (planned : s'.memory.faults.isDue .release = true)
      (within : ((gone ++ [r] : List Record) : Multiset Record) ≤ s.overdue.filter p) :
      Course bad p s (.error (.error Memory.plannedFault) (s'.withFaults (s'.memory.faults.pass .release)))
  | broken {s₁ s' : Store} {gone : List Record} {r : Record} (retires : Retires s s₁ gone)
      (told : s₁.notifier.lost = s.notifier.lost) (last : Retires s₁ s' [r])
      (lost : s'.notifier.lost = s₁.notifier.lost + 1)
      (within : ((gone ++ [r] : List Record) : Multiset Record) ≤ s.overdue.filter p) :
      Course bad p s (.error (.abort .listener) s')
  | stopped {s' : Store} {gone : List Record} {fault : CodecFault} (retires : Retires s s' gone)
      (told : s'.notifier.lost = s.notifier.lost) (within : (gone : Multiset Record) ≤ s.overdue.filter p)
      (spoilt : bad) : Course bad p s (.error (.error (.codec fault)) s')

namespace Course

variable {a : α} {res : EStateM.Result Failure Store α}

theorem congr (h : Course bad p s res) (hpq : ∀ r ∈ s.overdue, p r ↔ q r) : Course bad q s res := by
  have hfilter : s.overdue.filter p = s.overdue.filter q := Multiset.filter_congr hpq
  cases h with
  | finishes retires told all => exact .finishes retires told (hfilter ▸ all)
  | refused retires told planned within => exact .refused retires told planned (hfilter ▸ within)
  | broken retires told last lost within => exact .broken retires told last lost (hfilter ▸ within)
  | stopped retires told within spoilt => exact .stopped retires told (hfilter ▸ within) spoilt

/-- Nothing is to be evicted. -/
theorem idle (h : Retires s s' []) (hnone : ∀ r ∈ s.overdue, ¬ p r) : Course bad p s (.ok a s') := by
  refine .finishes h ?_ (Multiset.filter_eq_nil.mpr hnone).symm
  rw [h.notifier]
  rfl

/-- What is evicted by the first part and then by the rest. -/
theorem bind {x : Op α} {f : α → Op β} (hx : Course bad p s (x s))
    (hf : ∀ {a s' gone}, x s = .ok a s' → Retires s s' gone → Course bad q s' (f a s')) :
    Course bad (fun r => p r ∨ q r) s ((x >>= f) s) := by
  have hweaker : s.overdue.filter p ≤ s.overdue.filter fun r => p r ∨ q r :=
    Multiset.monotone_filter_right _ fun _ => Or.inl
  generalize hrun : x s = res at hx
  cases hx with
  | refused retires told planned within =>
    rw [bind_error hrun]
    exact .refused retires told planned (within.trans hweaker)
  | broken retires told last lost within =>
    rw [bind_error hrun]
    exact .broken retires told last lost (within.trans hweaker)
  | stopped retires told within spoilt =>
    rw [bind_error hrun]
    exact .stopped retires told (within.trans hweaker) spoilt
  | finishes retires told all =>
    rename_i a s₁ gone
    have hall := retires.filter_or (q := q) all
    have hadd {rest : Multiset Record} (hrest : rest ≤ s₁.overdue.filter q) :
        ↑gone + rest ≤ s.overdue.filter fun r => p r ∨ q r := hall.symm ▸ add_le_add le_rfl hrest
    have hcourse := hf hrun retires
    rw [bind_ok hrun]
    generalize f a s₁ = res at hcourse
    cases hcourse with
    | finishes retires' told' all' =>
      exact .finishes (retires.trans retires') (told'.trans told) (by rw [hall, ← all', Multiset.coe_add])
    | @refused _ _ r retires' told' planned within =>
      refine .refused (r := r) (retires.trans retires') (told'.trans told) planned ?_
      rw [List.append_assoc, ← Multiset.coe_add]
      exact hadd within
    | broken retires' told' last lost within =>
      refine .broken (retires.trans retires') (told'.trans told) last lost ?_
      rw [List.append_assoc, ← Multiset.coe_add]
      exact hadd within
    | stopped retires' told' within spoilt =>
      refine .stopped (retires.trans retires') (told'.trans told) ?_ spoilt
      rw [← Multiset.coe_add]
      exact hadd within

/-- What comes after it evicts nothing. -/
theorem followed {x : Op α} {f : α → Op β} (hx : Course bad p s (x s)) (hs : s.Orderly)
    (hf : ∀ {a s' gone}, Retires s s' gone → ∃ b, f a s' = .ok b s') : Course bad p s ((x >>= f) s) := by
  refine (hx.bind (q := fun _ => False) fun {a _ _} _ retires => ?_).congr fun r _ => iff_of_eq (or_false _)
  obtain ⟨b, hb⟩ := hf (a := a) retires
  rw [hb]
  exact .idle (.refl (retires.orderly hs)) fun _ _ => id

end Course

end RecordStore.Store
