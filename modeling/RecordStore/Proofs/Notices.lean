import RecordStore.Expiry.Notifier

/-! # Calm notifiers

A listener can break an operation only if it is told in the course of it. -/

namespace RecordStore.Notifier

/-- Notices wait to be told, or the listener breaks on none of them. -/
def Calm (n : Notifier) : Prop :=
  n.executor = .inline → ∀ l, n.listener? = some l → ∀ before event, l.breaksOn before event = false

theorem calm_silent (typeName : String) : (silent typeName).Calm := by
  intro _ l hl
  cases hl

/-- An eviction is told, or breaks on a listener that is not calm. -/
theorem notify_cases (n : Notifier) (x : Notice) :
    (∃ n', notify x n = .ok () n' ∧ (n.Calm → n'.Calm)) ∨
      ∃ n', notify x n = .error (.abort .listener) n' ∧ ¬ n.Calm := by
  unfold notify
  split
  · exact Or.inl ⟨n, rfl, id⟩
  · rename_i l hl
    cases he : n.executor with
    | inline =>
      simp only [deliver]
      split
      · rename_i hbreaks
        refine Or.inr ⟨_, rfl, fun hcalm => ?_⟩
        rw [hcalm he l hl] at hbreaks
        cases hbreaks
      · exact Or.inl ⟨_, rfl, fun hcalm _ => hcalm he⟩
    | pool waiting => exact Or.inl ⟨_, rfl, fun _ hinline => by cases hinline⟩
    | queue q => exact Or.inl ⟨_, rfl, fun _ hinline => by cases hinline⟩

end RecordStore.Notifier
