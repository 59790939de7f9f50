import RecordStore.Proofs.Store.Evictions

/-! # What requests take away

Lookups, searches and sweeps take away what is over, and a removal what has its key. However such a request ends, what
it has taken away by then is some of what it is to take away, and it can be asked again for the rest. -/

namespace RecordStore.Store

open RecordStore.Action

variable {α : Type} {s s' s'' : Store} {q : Request} {gone gone' : List Record}

namespace Request

/-- Lookups, searches and sweeps that answer what is stored as it is. -/
def Evicts : Request → Prop
  | contains .. | getRecord .. | get .. | matching .. | evictExpired => True
  | _ => False

/-- Requests that give blocks back, but for those that clear the store or decode what they find. -/
def Releases : Request → Prop
  | remove .. => True
  | q => q.Evicts

/-- The notices of what a request takes away. -/
def tidings : Request → List Record → List Notice
  | remove _, _ => []
  | _, gone => gone.map Record.notice

theorem Evicts.releases (hq : q.Evicts) : q.Releases := by
  cases q with
  | remove => trivial
  | _ => exact hq

theorem Evicts.tidings (hq : q.Evicts) (gone : List Record) : q.tidings gone = gone.map Record.notice := by
  cases q with
  | remove => exact absurd hq id
  | _ => rfl

theorem tidings_append (q : Request) (gone gone' : List Record) :
    q.tidings (gone ++ gone') = q.tidings gone ++ q.tidings gone' := by
  cases q with
  | remove => rfl
  | _ => exact List.map_append

end Request

/-- The records that a request is to take away. -/
def leaving (s : Store) : Request → Multiset Record
  | .contains k | .getRecord k | .get k => s.overdue.filter (·.key? = some k)
  | .matching _ | .evictExpired => s.overdue
  | .remove k => s.records.filter (·.key? = some k)
  | _ => 0

/-- No payload keeps a request from being answered. -/
def Answerable (s : Store) : Request → Prop
  | .matching tm => s.Comparable tm
  | _ => True

theorem leaving_le (s : Store) (q : Request) : s.leaving q ≤ s.records := by
  have hoverdue : s.overdue ≤ s.records := Multiset.filter_le _ _
  cases q with
  | contains | getRecord | get => exact (Multiset.filter_le _ _).trans hoverdue
  | matching | evictExpired => exact hoverdue
  | remove => exact Multiset.filter_le _ _
  | _ => exact Multiset.zero_le _

theorem due_of_leaving (hq : q.Evicts) (hwithin : (gone : Multiset Record) ≤ s.leaving q) :
    ∀ r ∈ gone, r.isOver s.clock.now := by
  intro r hr
  have hmem : r ∈ s.leaving q := Multiset.mem_of_le hwithin hr
  cases q with
  | contains | getRecord | get => exact (Multiset.mem_filter.mp (Multiset.mem_of_mem_filter hmem)).2
  | matching | evictExpired => exact (Multiset.mem_filter.mp hmem).2
  | _ => exact absurd hq id

/-! ### Taking away -/

/-- From `s` to `s'` a request has taken records away one after the other. Those that it evicted were counted, and their
    notices were handed to the notifier, whatever came of that. -/
structure Takes (q : Request) (s s' : Store) (gone : List Record) : Prop extends Frees s s' gone where
  expired : s'.counters.expired = s.counters.expired + (q.tidings gone).length
  notifier : s'.notifier = s.notifier.notifyAll (q.tidings gone)

theorem Retires.takes (h : Retires s s' gone) (hq : q.Evicts) : Takes q s s' gone where
  toFrees := h.toFrees
  expired := by rw [h.expired, hq.tidings, List.length_map]
  notifier := by rw [h.notifier, hq.tidings]

namespace Takes

theorem trans (h₁ : Takes q s s' gone) (h₂ : Takes q s' s'' gone') : Takes q s s'' (gone ++ gone') where
  toFrees := h₁.toFrees.trans h₂.toFrees
  expired := by rw [h₂.expired, h₁.expired, q.tidings_append, List.length_append, Nat.add_assoc]
  notifier := by rw [h₂.notifier, h₁.notifier, q.tidings_append, Notifier.notifyAll_append]

/-- The request is still to take away the rest. -/
theorem leaving (h : Takes q s s' gone) (hwithin : (gone : Multiset Record) ≤ s.leaving q) :
    ↑gone + s'.leaving q = s.leaving q := by
  have hover (hq : q.Evicts) : ↑gone + s'.overdue = s.overdue := h.overdue (due_of_leaving hq hwithin)
  have hkey {k : Value} {all rest : Multiset Record} (hall : ↑gone + rest = all)
      (hgone : (gone : Multiset Record) ≤ all.filter (·.key? = some k)) :
      ↑gone + rest.filter (·.key? = some k) = all.filter (·.key? = some k) := by
    rw [← hall, Multiset.filter_add]
    refine congrArg (· + _) (Multiset.filter_eq_self.mpr fun r hr => ?_).symm
    exact (Multiset.mem_filter.mp (Multiset.mem_of_le hgone hr)).2
  have hnone (hgone : (gone : Multiset Record) ≤ 0) : (gone : Multiset Record) + 0 = 0 := by
    rw [Multiset.le_zero.mp hgone, add_zero]
  cases q with
  | contains k => exact hkey (hover trivial) hwithin
  | getRecord k => exact hkey (hover trivial) hwithin
  | get k => exact hkey (hover trivial) hwithin
  | matching tm => exact hover trivial
  | evictExpired => exact hover trivial
  | remove k => exact hkey ((add_comm _ _).trans h.split) hwithin
  | put | putEntity | getEntity | fetch | destroy | setClock => exact hnone hwithin

theorem answerable (h : Takes q s s' gone) (hwithin : (gone : Multiset Record) ≤ s.leaving q) :
    s'.Answerable q ↔ s.Answerable q := by
  cases q with
  | matching tm =>
    unfold Answerable Comparable
    rw [h.unexpired (due_of_leaving (q := .matching tm) trivial hwithin)]
  | _ => exact Iff.rfl

end Takes

/-! ### Ways to end -/

/-- How a request ends that gives blocks back: all that it is to take away is gone, or the release of the next record
    was refused, or the listener broke on the last one, or a payload stopped it. -/
inductive Goes (s : Store) (q : Request) : Response × Store → Prop
  | finishes {response : Response} {s' : Store} {gone : List Record} (takes : Takes q s s' gone)
      (told : s'.notifier.lost = s.notifier.lost) (all : (gone : Multiset Record) = s.leaving q)
      (answered : ∀ e, response ≠ .failed e) : Goes s q (response, s')
  | refused {s' : Store} {gone : List Record} {r : Record} (takes : Takes q s s' gone)
      (told : s'.notifier.lost = s.notifier.lost) (planned : s'.memory.faults.isDue .release = true)
      (within : ((gone ++ [r] : List Record) : Multiset Record) ≤ s.leaving q) :
      Goes s q (.failed (.error Memory.plannedFault), s'.withFaults (s'.memory.faults.pass .release))
  | broken {s₁ s' : Store} {gone : List Record} {r : Record} (takes : Takes q s s₁ gone)
      (told : s₁.notifier.lost = s.notifier.lost) (last : Takes q s₁ s' [r])
      (lost : s'.notifier.lost = s₁.notifier.lost + 1)
      (within : ((gone ++ [r] : List Record) : Multiset Record) ≤ s.leaving q) (evicts : q.Evicts) :
      Goes s q (.failed (.abort .listener), s')
  | stopped {s' : Store} {gone : List Record} {fault : CodecFault} (takes : Takes q s s' gone)
      (told : s'.notifier.lost = s.notifier.lost) (within : (gone : Multiset Record) ≤ s.leaving q)
      (spoilt : ¬ s.Answerable q) : Goes s q (.failed (.error (.codec fault)), s')

theorem Course.goes {p : Record → Prop} [DecidablePred p] {x : Op α} {reply : α → Response} (hq : q.Evicts)
    (hx : Course (¬ s.Answerable q) p s (x s)) (hleaving : s.overdue.filter p = s.leaving q)
    (hreply : ∀ a e, reply a ≠ .failed e) : Goes s q (respond reply x s) := by
  unfold respond
  generalize x s = res at hx
  cases hx with
  | finishes retires told all => exact .finishes (retires.takes hq) told (all.trans hleaving) (hreply _)
  | refused retires told planned within => exact .refused (retires.takes hq) told planned (hleaving ▸ within)
  | broken retires told last lost within =>
    exact .broken (retires.takes hq) told (last.takes hq) lost (hleaving ▸ within) hq
  | stopped retires told within spoilt => exact .stopped (retires.takes hq) told (hleaving ▸ within) spoilt

theorem remove_goes (hs : s.Orderly) (k : Value) : Goes s (.remove k) (answer (.remove k) s) := by
  have hcount := Frees.tally hs s.gets s.puts (s.removes + 1)
  rcases remove_outcomes hs k with ⟨r, hone, ⟨hplanned, hrefused⟩ | ⟨s', hremoved, hfrees, hsilent⟩⟩ | ⟨hnone, hrun⟩
  · rw [answer, respond_error hrefused]
    have htakes : Takes (.remove k) s (s.tally s.gets s.puts (s.removes + 1)) [] := ⟨hcount, rfl, rfl⟩
    exact .refused (r := r) htakes rfl hplanned hone.ge
  · rw [answer, respond_ok hremoved]
    exact .finishes ⟨hfrees, hsilent.expired, hsilent.notifier⟩ (congrArg _ hsilent.notifier) hone.symm
      fun _ he => by cases he
  · rw [answer, respond_ok hrun]
    exact .finishes ⟨hcount, rfl, rfl⟩ rfl hnone.symm fun _ he => by cases he

/-- Every request that gives blocks back ends in one of these ways, whichever releases fail and whatever the listener
    does. -/
theorem answer_goes (hs : s.Orderly) (hq : q.Releases) : Goes s q (answer q s) := by
  have hall : s.overdue.filter (fun _ => True) = s.overdue := Multiset.filter_true _
  cases q with
  | contains k => exact (course_contains hs k).goes trivial rfl fun _ _ => nofun
  | getRecord k => exact (course_getRecord? hs k).goes trivial rfl fun _ _ => nofun
  | get k => exact (course_get? hs k).goes trivial rfl fun _ _ => nofun
  | matching tm => exact Course.goes (q := .matching tm) trivial (course_matching hs tm) hall fun _ _ => nofun
  | evictExpired => exact (course_evictExpired hs).goes trivial hall fun _ _ => nofun
  | remove k => exact remove_goes hs k
  | _ => exact absurd hq id

end RecordStore.Store
