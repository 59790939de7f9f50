import RecordStore.Proofs.Store.PartialRemovals

/-! # A listener that stays

Whatever is asked of a store, a listener that is told at once is told at once ever after, by the same name. -/

namespace RecordStore

open RecordStore.Action

/-- The listener has stayed. -/
def Notifier.Attends (n n' : Notifier) : Prop := ∀ l, n.Inline l → n'.Inline l ∧ n'.typeName = n.typeName

instance : IsPreorder Notifier Notifier.Attends where
  refl _ _ hn := ⟨hn, rfl⟩
  trans _ _ _ h₁ h₂ l hn := by
    obtain ⟨hn', hname⟩ := h₁ l hn
    obtain ⟨hn'', hname'⟩ := h₂ l hn'
    exact ⟨hn'', hname'.trans hname⟩

theorem Notifier.attends_notify (x : Notice) : Moves Attends (notify x) := by
  intro n l hn
  have hhands := hn.notify x
  exact ⟨hhands.inline, hhands.typeName⟩

/-! ### Segments -/

namespace Segment

variable {t u : State}

def Attends (t u : State) : Prop := t.notifier.Attends u.notifier

instance : IsPreorder State Attends where
  refl t := refl t.notifier
  trans _ _ _ h₁ h₂ := IsTrans.trans (r := Notifier.Attends) _ _ _ h₁ h₂

theorem Silent.attends (h : Silent t u) : Attends t u := by
  unfold Attends
  rw [h.notifier]
  exact refl t.notifier

theorem Unwritten.attends (h : Unwritten t u) : Attends t u := h.rearranged.silent.attends

theorem attends_onNotifier (x : Notice) : Moves Attends (onNotifier (Notifier.notify x)) := fun t => by
  rw [final_onNotifier]
  exact Notifier.attends_notify x t.notifier

theorem attends_evict (k : Value) : Moves Attends (evict k) :=
  Rearranged.moves_evict (fun h => h.silent.attends)
    (fun n => (silent_entryRemoved n).mono fun _ _ => Silent.attends) (fun t => refl t.notifier) attends_onNotifier k

end Segment

/-! ### Stores -/

namespace Store

variable {s s' : Store} {l : Listener} {gone : List Record} {q : Request}

def Attends (s s' : Store) : Prop := s.notifier.Attends s'.notifier

instance : IsPreorder Store Attends where
  refl s := refl s.notifier
  trans _ _ _ h₁ h₂ := IsTrans.trans (r := Notifier.Attends) _ _ _ h₁ h₂

theorem Silent.attends (h : Silent s s') : Attends s s' := by
  unfold Attends
  rw [h.notifier]
  exact refl s.notifier

theorem attends_onSegment {α : Type} {x : Segment.Op α} (h : Moves Segment.Attends x) (i : Nat) :
    Moves Attends (onSegment i x) := moves_onSegment h fun _ hu => hu

theorem bears_attends : Bears Attends where
  tally s _ _ _ := refl s.notifier
  clock s _ := refl s.notifier
  contains k := attends_onSegment (Segment.Unwritten.moves_contains Segment.Unwritten.attends Segment.attends_evict k)
  getRecord? k :=
    attends_onSegment (Segment.Unwritten.moves_getRecord? Segment.Unwritten.attends Segment.attends_evict k)
  get? k := attends_onSegment (Segment.Unwritten.moves_get? Segment.Unwritten.attends Segment.attends_evict k)
  remove k := attends_onSegment ((Segment.silent_remove k).mono fun _ _ => Segment.Silent.attends)
  matching tm := attends_onSegment (Segment.Unwritten.moves_matching Segment.Unwritten.attends Segment.attends_evict tm)
  evictExpired :=
    attends_onSegment (Segment.Unwritten.moves_evictExpired Segment.Unwritten.attends Segment.attends_evict)
  destroy := attends_onSegment (Segment.silent_destroy.mono fun _ _ => Segment.Silent.attends)

theorem answer_attends (q : Request) (s : Store) : Attends s (answer q s).2 :=
  bears_attends.answer fun payload ttl _ => (silent_put payload ttl s).attends

theorem run_attends (requests : List Request) (s : Store) : Attends s (run requests s).2 := by
  induction requests generalizing s with
  | nil => exact refl s.notifier
  | cons q requests ih => exact IsTrans.trans (r := Attends) _ _ _ (answer_attends q s) (ih (answer q s).2)

/-- The listener is handed the notices of what is evicted. -/
theorem Takes.hands (h : Takes q s s' gone) (hl : s.notifier.Inline l) :
    Notifier.Hands l s.notifier s'.notifier (q.tidings gone) := by
  rw [h.notifier]
  exact hl.notifyAll _

end Store

end RecordStore
