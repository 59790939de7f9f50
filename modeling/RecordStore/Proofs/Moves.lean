import Mathlib.Order.Defs.Unbundled
import RecordStore.Proofs.Actions

/-! # Where actions lead

What an action keeps can be told without running it: if each of its parts takes a state only to related ones, also
where it fails, then so does the whole. The relation has to be one that parts can be chained by. -/

namespace RecordStore

namespace Action
variable {σ τ α β : Type} {R : σ → σ → Prop}

/-- Whether it answers or fails, an action takes each state to a related one. -/
def Moves (R : σ → σ → Prop) (x : Action σ α) : Prop := ∀ s, R s (final x s)

theorem final_bind (x : Action σ α) (f : α → Action σ β) (s : σ) :
    final (x >>= f) s = match x s with
      | .ok a t => final (f a) t
      | .error _ t => t := by
  cases h : x s with
  | ok a t =>
    simp only [final]
    rw [bind_ok h]
  | error e t => exact final_error (bind_error h)

/-- What is answered in the end does not matter for the state. -/
theorem final_bind_pure (x : Action σ α) (f : α → β) (s : σ) : final (x >>= fun a => pure (f a)) s = final x s := by
  rw [final_bind, final]
  cases x s <;> rfl

theorem final_attempt (x : Action σ α) (s : σ) : final (attempt x) s = final x s := by
  unfold final attempt
  cases x s with
  | ok a t => rfl
  | error e t => cases e <;> rfl

/-- An action on a part of the state changes that part only. -/
theorem final_on {part : σ → τ} {replace : σ → τ → σ} {vacant : τ} (x : Action τ α) (s : σ) :
    final (on part replace vacant x) s = replace (replace s vacant) (final x (part s)) := by
  cases h : x (part s) with
  | ok a t => simp only [final, on, h]
  | error e t => simp only [final, on, h]

namespace Moves

theorem mono {S : σ → σ → Prop} {x : Action σ α} (h : Moves R x) (hRS : ∀ s t, R s t → S s t) : Moves S x :=
  fun s => hRS s _ (h s)

theorem attempt {x : Action σ α} (h : Moves R x) : Moves R (Action.attempt x) := fun s => by
  rw [final_attempt]
  exact h s

theorem ok {x : Action σ α} {a : α} {s t : σ} (h : Moves R x) (hx : x s = .ok a t) : R s t := by
  have hmoved := h s
  rw [final_ok hx] at hmoved
  exact hmoved

theorem error {x : Action σ α} {e : Failure} {s t : σ} (h : Moves R x) (hx : x s = .error e t) : R s t := by
  have hmoved := h s
  rw [final_error hx] at hmoved
  exact hmoved

section Preorder
variable [IsPreorder σ R] {x : Action σ α} {f : α → Action σ β}

theorem pure (a : α) : Moves R (Pure.pure a : Action σ α) := fun s => refl s

theorem throw (e : Failure) : Moves R (MonadExcept.throw e : Action σ α) := fun s => refl s

theorem ofCodec (r : Except CodecFault α) : Moves R (Action.ofCodec r : Action σ α) := by
  cases r with
  | ok a => exact pure a
  | error fault => exact throw _

/-- What the first part does in one state is enough there. -/
theorem bind_at {s : σ} (hx : R s (final x s)) (hf : ∀ a, Moves R (f a)) : R s (final (x >>= f) s) := by
  rw [final_bind]
  cases h : x s with
  | ok a t =>
    rw [final_ok h] at hx
    exact IsTrans.trans _ _ _ hx (hf a t)
  | error e t =>
    rw [final_error h] at hx
    exact hx

theorem bind (hx : Moves R x) (hf : ∀ a, Moves R (f a)) : Moves R (x >>= f) := fun s => bind_at (hx s) hf

end Preorder

end Moves

end Action

namespace Segment

open RecordStore.Action

variable {α : Type}

theorem final_onMemory (x : Action Memory α) (t : State) :
    final (onMemory x) t = { t with memory := final x t.memory } := final_on x t

theorem final_onNotifier (x : Action Notifier α) (t : State) :
    final (onNotifier x) t = { t with notifier := final x t.notifier } := final_on x t

theorem final_onCounters (x : Action Counters α) (t : State) :
    final (onCounters x) t = { t with counters := final x t.counters } := final_on x t

end Segment

end RecordStore
