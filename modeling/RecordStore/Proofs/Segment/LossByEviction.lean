import RecordStore.Proofs.Segment.Finding
import RecordStore.Proofs.Segment.NoEvictions
import RecordStore.Proofs.Segment.Visiting

/-! # Records that go by eviction

Lookups, searches and sweeps take records away only by evicting them: those that are gone afterwards were over, and
for each of them one eviction is counted and one notice is given, also where the operation failed half-way. -/

namespace RecordStore

open RecordStore.Action

namespace Notifier

/-- The listener is told in the course of each eviction, and breaks on none. -/
structure Prompt (l : Listener) (n : Notifier) : Prop where
  listener? : n.listener? = some l
  executor : n.executor = .inline
  unbroken : ∀ before event, l.breaksOn before event = false

/-- From `n` to `n'` the listener has been told of some notices, and of nothing else. -/
structure Tells (l : Listener) (n n' : Notifier) (notices : Multiset Notice) : Prop where
  prompt : n'.Prompt l
  typeName : n'.typeName = n.typeName
  dispatched : n'.dispatched = n.dispatched + notices.card
  delivered : (n'.delivered.toList : Multiset Event) =
    n.delivered.toList + notices.map fun x => x.event n.typeName l.wantsEntity

namespace Tells
variable {l : Listener} {n n' n'' : Notifier} {xs xs' : Multiset Notice}

theorem refl (hn : n.Prompt l) : Tells l n n 0 :=
  ⟨hn, rfl, rfl, by rw [Multiset.map_zero, add_zero]⟩

theorem trans (h₁ : Tells l n n' xs) (h₂ : Tells l n' n'' xs') : Tells l n n'' (xs + xs') where
  prompt := h₂.prompt
  typeName := h₂.typeName.trans h₁.typeName
  dispatched := by rw [h₂.dispatched, h₁.dispatched, Multiset.card_add, Nat.add_assoc]
  delivered := by rw [h₂.delivered, h₁.delivered, h₁.typeName, Multiset.map_add, add_assoc]

end Tells

theorem Prompt.notify {l : Listener} {n : Notifier} (hn : n.Prompt l) (x : Notice) :
    ∃ n', notify x n = .ok () n' ∧ Tells l n n' {x} := by
  refine ⟨{ n with dispatched := n.dispatched + 1, executor := .inline,
                   delivered := n.delivered.push (x.event n.typeName l.wantsEntity) }, ?_, ?_⟩
  · simp only [Notifier.notify, hn.listener?, hn.executor, deliver, hn.unbroken, Bool.false_eq_true, ↓reduceIte]
  · refine ⟨⟨hn.listener?, rfl, hn.unbroken⟩, rfl, rfl, ?_⟩
    rw [Array.toList_push, ← Multiset.coe_add, Multiset.map_singleton]
    rfl

end Notifier

/-- What is told of the eviction of a record. -/
def Record.notice (r : Record) : Notice := ⟨r.payload, r.ttl⟩

namespace Segment

variable {t u v : State} {gone gone' : Multiset Record} {k : Value}

/-- From `t` to `u` some records have been evicted, and no other one has come, gone or changed. -/
structure Evicts (t u : State) (gone : Multiset Record) : Prop where
  leads : Leads t u u.records
  split : u.records + gone = t.records
  due : ∀ r ∈ gone, r.isOver t.clock.now
  expired : u.counters.expired = t.counters.expired + gone.card
  told : ∀ l, t.notifier.Prompt l → t.notifier.Tells l u.notifier (gone.map Record.notice)

namespace Evicts

theorem refl (ht : t.WellFormed) : Evicts t t 0 where
  leads := Leads.refl ht
  split := add_zero _
  due _ hr := absurd hr (Multiset.notMem_zero _)
  expired := rfl
  told _ hl := Notifier.Tells.refl hl

theorem trans (h₁ : Evicts t u gone) (h₂ : Evicts u v gone') : Evicts t v (gone + gone') where
  leads := h₁.leads.trans h₂.leads
  split := by rw [add_comm gone, ← add_assoc, h₂.split, h₁.split]
  due r hr := by
    rcases Multiset.mem_add.mp hr with hr | hr
    · exact h₁.due r hr
    · rw [← h₁.leads.keeps.clock]
      exact h₂.due r hr
  expired := by rw [h₂.expired, h₁.expired, Multiset.card_add, Nat.add_assoc]
  told l hl := by
    have htold := h₁.told l hl
    rw [Multiset.map_add]
    exact htold.trans (h₂.told l htold.prompt)

end Evicts

/-- Whatever goes, goes by eviction. -/
def Sheds (t u : State) : Prop := t.WellFormed → ∃ gone, Evicts t u gone

instance : IsPreorder State Sheds where
  refl _ ht := ⟨0, Evicts.refl ht⟩
  trans _ _ _ h₁ h₂ ht := by
    obtain ⟨gone, hgone⟩ := h₁ ht
    obtain ⟨gone', hgone'⟩ := h₂ hgone.leads.wellFormed
    exact ⟨gone + gone', hgone.trans hgone'⟩

theorem Unwritten.sheds (h : Unwritten t u) : Sheds t u := fun ht => by
  rw [h.same ht.steady.legible]
  exact ⟨0, Evicts.refl ht⟩

/-! ### Evicting -/

/-- A record that was removed, counted and told of has been evicted. -/
theorem Evicts.single {r : Record} {n : Notifier} (hleads : Leads t u u.records) (hsilent : Silent t u)
    (hall : t.records = r ::ₘ u.records) (hover : r.isOver t.clock.now) (hcalm : t.notifier.Calm → n.Calm)
    (htold : ∀ l, t.notifier.Prompt l → t.notifier.Tells l n {r.notice}) :
    Evicts t { u.withCounters u.counters.entryExpired with notifier := n } {r} where
  leads := hleads.told hcalm
  split := by rw [hall, add_comm, Multiset.singleton_add]; rfl
  due r' hr' := by rw [Multiset.mem_singleton.mp hr']; exact hover
  expired := congrArg (· + 1) hsilent.expired
  told l hl := by rw [Multiset.map_singleton]; exact htold l hl

theorem sheds_evict (k : Value) : Moves Sheds (evict k) := by
  intro t ht
  rcases evict_cases ht k with ⟨r, u, hall, hdue, -, ⟨i, h, hrun⟩, hleads, hnotifier, hevict⟩ | ⟨-, hrun⟩
  · rw [← hleads.records] at hall hleads
    have hsilent : Silent t u := (silent_removeAt i h).ok hrun
    rcases Notifier.notify_cases u.notifier r.notice with ⟨n, hnotify, hcalm⟩ | ⟨n, hnotify, hbreaks⟩
    · refine ⟨{r}, ?_⟩
      have htold := onNotifier_ok (t := u.withCounters u.counters.entryExpired) hnotify
      rw [Record.notice] at htold
      rw [final_ok (by rw [hevict, bind_ok htold, pure_run])]
      refine Evicts.single hleads hsilent hall hdue (hnotifier ▸ hcalm) fun l hl => ?_
      obtain ⟨n', hnotify', htells⟩ := hl.notify r.notice
      rw [← hnotifier, hnotify] at hnotify'
      cases hnotify'
      exact htells
    · refine ⟨{r}, ?_⟩
      have hbroken := onNotifier_error (t := u.withCounters u.counters.entryExpired) hnotify
      rw [Record.notice] at hbroken
      rw [final_error (by rw [hevict, bind_error hbroken])]
      refine Evicts.single hleads hsilent hall hdue (fun hcalm => absurd (hnotifier ▸ hcalm) hbreaks) fun l hl => ?_
      obtain ⟨n', hnotify', -⟩ := hl.notify r.notice
      rw [← hnotifier, hnotify] at hnotify'
      cases hnotify'
  · rw [final_ok hrun]
    exact ⟨0, Evicts.refl ht⟩

theorem sheds_evictExpired : Moves Sheds evictExpired := Unwritten.moves_evictExpired Unwritten.sheds sheds_evict

/-! ### Looking -/

theorem sheds_contains (k : Value) : Moves Sheds (contains k) :=
  Unwritten.moves_contains Unwritten.sheds sheds_evict k

theorem sheds_getRecord? (k : Value) : Moves Sheds (getRecord? k) :=
  Unwritten.moves_getRecord? Unwritten.sheds sheds_evict k

theorem sheds_get? (k : Value) : Moves Sheds (get? k) := Unwritten.moves_get? Unwritten.sheds sheds_evict k

theorem sheds_matching (tm : Template) : Moves Sheds (matching tm) :=
  Unwritten.moves_matching Unwritten.sheds sheds_evict tm

end Segment

end RecordStore
