import RecordStore.Expiry.Notifier
import RecordStore.Proofs.Actions
import RecordStore.Proofs.Notices

/-! # Telling a listener at once

Notices are handed to a listener one after the other, and it may break on any of them. Each is handed over once: it is
taken or lost, and what is taken comes in the order of the notices. -/

namespace RecordStore.Notifier

open RecordStore.Action

variable {l : Listener} {n n' n'' : Notifier} {x : Notice} {xs xs' : List Notice}

/-- The notifier after it was given some notices one after the other, whichever of them the listener breaks on. -/
def notifyAll (xs : List Notice) (n : Notifier) : Notifier := xs.foldl (fun n x => final (notify x) n) n

theorem notifyAll_append (xs xs' : List Notice) (n : Notifier) :
    n.notifyAll (xs ++ xs') = (n.notifyAll xs).notifyAll xs' := List.foldl_append

/-- A notice is handed over, or the listener breaks on it. -/
theorem notify_outcomes (n : Notifier) (x : Notice) :
    (notify x n = .ok () (final (notify x) n) ∧ (final (notify x) n).lost = n.lost) ∨
    (notify x n = .error (.abort .listener) (final (notify x) n) ∧ (final (notify x) n).lost = n.lost + 1) := by
  unfold final notify
  cases n.listener? with
  | none => exact Or.inl ⟨rfl, rfl⟩
  | some l =>
    cases n.executor with
    | pool waiting => exact Or.inl ⟨rfl, rfl⟩
    | queue q => exact Or.inl ⟨rfl, rfl⟩
    | inline =>
      simp only [deliver]
      split
      · exact Or.inr ⟨rfl, rfl⟩
      · exact Or.inl ⟨rfl, rfl⟩

/-- The listener is told in the course of each eviction. It may break on any event. -/
structure Inline (l : Listener) (n : Notifier) : Prop where
  listener? : n.listener? = some l
  executor : n.executor = .inline

/-- From `n` to `n'` the listener was handed some notices, each of them once: it took some, in their order, and broke
    on the others. -/
structure Hands (l : Listener) (n n' : Notifier) (xs : List Notice) : Prop where
  inline : n'.Inline l
  typeName : n'.typeName = n.typeName
  dispatched : n'.dispatched = n.dispatched + xs.length
  taken : ∃ ys : List Notice, ys.Sublist xs ∧ n'.lost + ys.length = n.lost + xs.length ∧
    n'.delivered.toList = n.delivered.toList ++ ys.map (·.event n.typeName l.wantsEntity)

namespace Hands

theorem refl (hn : n.Inline l) : Hands l n n [] := ⟨hn, rfl, rfl, [], List.Sublist.refl _, rfl, by simp⟩

theorem trans (h₁ : Hands l n n' xs) (h₂ : Hands l n' n'' xs') : Hands l n n'' (xs ++ xs') where
  inline := h₂.inline
  typeName := h₂.typeName.trans h₁.typeName
  dispatched := by rw [h₂.dispatched, h₁.dispatched, List.length_append, Nat.add_assoc]
  taken := by
    obtain ⟨ys, hys, hlost, hdelivered⟩ := h₁.taken
    obtain ⟨ys', hys', hlost', hdelivered'⟩ := h₂.taken
    refine ⟨ys ++ ys', hys.append hys', ?_, ?_⟩
    · rw [List.length_append, List.length_append]
      omega
    · rw [hdelivered', hdelivered, h₁.typeName, List.map_append, List.append_assoc]

end Hands

/-- From `n` to `n'` the listener took some notices, in their order, and broke on `broken` others. -/
structure Told (l : Listener) (n n' : Notifier) (xs : List Notice) (broken : Nat) : Prop where
  dispatched : n'.dispatched = n.dispatched + (xs.length + broken)
  delivered : n'.delivered.toList = n.delivered.toList ++ xs.map (·.event n.typeName l.wantsEntity)
  lost : n'.lost = n.lost + broken

/-- If the listener broke on none of them, it took them all. -/
theorem Hands.told (h : Hands l n n' xs) (hlost : n'.lost = n.lost) : Told l n n' xs 0 := by
  obtain ⟨ys, hys, hcount, hdelivered⟩ := h.taken
  have hlength : ys.length = xs.length := by rwa [hlost, Nat.add_left_cancel_iff] at hcount
  exact ⟨h.dispatched, hys.eq_of_length hlength ▸ hdelivered, hlost⟩

/-- If it broke on the last one, it took the others. -/
theorem Told.broken (h : Told l n n' xs 0) (hlast : Hands l n' n'' [x]) (hlost : n''.lost = n'.lost + 1) :
    Told l n n'' xs 1 := by
  obtain ⟨ys, -, hcount, hdelivered⟩ := hlast.taken
  have hnone : ys = [] := by
    rw [hlost, Nat.add_assoc, Nat.add_left_cancel_iff, List.length_singleton, Nat.add_comm, Nat.add_eq_right] at hcount
    exact List.eq_nil_of_length_eq_zero hcount
  rw [hnone, List.map_nil, List.append_nil] at hdelivered
  refine ⟨?_, hdelivered.trans h.delivered, by rw [hlost, h.lost]⟩
  rw [hlast.dispatched, h.dispatched, List.length_singleton, Nat.add_assoc]

theorem Inline.notify (hn : n.Inline l) (x : Notice) : Hands l n (final (notify x) n) [x] := by
  simp only [final, Notifier.notify, hn.listener?, hn.executor, deliver]
  cases hbreaks : l.breaksOn (n.delivered.size + n.lost) (x.event n.typeName l.wantsEntity) with
  | true => exact ⟨⟨rfl, rfl⟩, rfl, rfl, [], List.nil_sublist _, rfl, by simp⟩
  | false => exact ⟨⟨rfl, rfl⟩, rfl, rfl, [x], List.Sublist.refl _, rfl, Array.toList_push⟩

theorem Inline.notifyAll (hn : n.Inline l) (xs : List Notice) : Hands l n (n.notifyAll xs) xs := by
  induction xs generalizing n with
  | nil => exact Hands.refl hn
  | cons x xs ih => exact (hn.notify x).trans (ih (hn.notify x).inline)

/-- A calm notifier does not break. -/
theorem Calm.notify (hcalm : n.Calm) (x : Notice) :
    (final (Notifier.notify x) n).Calm ∧ (final (Notifier.notify x) n).lost = n.lost := by
  rcases notify_cases n x with ⟨n', hrun, hkept⟩ | ⟨n', -, hbreaks⟩
  · rcases notify_outcomes n x with ⟨htold, hlost⟩ | ⟨hbroken, -⟩
    · rw [htold] at hrun
      cases hrun
      exact ⟨hkept hcalm, hlost⟩
    · rw [hrun] at hbroken
      cases hbroken
  · exact absurd hcalm hbreaks

theorem Calm.lost_notifyAll (hcalm : n.Calm) (xs : List Notice) : (n.notifyAll xs).lost = n.lost := by
  induction xs generalizing n with
  | nil => rfl
  | cons x xs ih =>
    obtain ⟨hcalm', hlost⟩ := hcalm.notify x
    exact (ih hcalm').trans hlost

end RecordStore.Notifier
