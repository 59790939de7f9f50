import RecordStore.Proofs.Moves

/-! # What actions come to

What holds of an answer or a failure, and of the state that is left with it, is found link by link along a chain of
actions. For an action whose calls may fail at any place this is where its invariant has to hold: at every exit. -/

namespace RecordStore

namespace Failure

/-- Reported to the caller. -/
def Reported (e : Failure) : Prop := ∃ error, e = .error error

/-- No sign of a table without empty slots, nor of a count of entries that would go below zero. -/
def Benign : Failure → Prop
  | .abort (.noEmptySlot _) | .abort .differenceOverflow => False
  | _ => True

theorem Reported.benign {e : Failure} (h : e.Reported) : e.Benign := by
  obtain ⟨error, rfl⟩ := h
  trivial

end Failure

namespace Action
variable {σ α β : Type} {x : Action σ α} {f : α → Action σ β} {a : α} {e : Failure} {s t : σ}

/-- An answer satisfies `Q` and a failure satisfies `E`, each with the state that is left. -/
def Yields (x : Action σ α) (s : σ) (Q : α → σ → Prop) (E : Failure → σ → Prop) : Prop :=
  match x s with
  | .ok a t => Q a t
  | .error e t => E e t

namespace Yields
variable {Q Q' : α → σ → Prop} {E E' : Failure → σ → Prop}

theorem of_ok (hx : x s = .ok a t) (h : Q a t) : Yields x s Q E := by
  rw [Yields, hx]
  exact h

theorem of_error (hx : x s = .error e t) (h : E e t) : Yields x s Q E := by
  rw [Yields, hx]
  exact h

theorem of_eq {y : Action σ α} (hx : x s = y t) (h : Yields y t Q E) : Yields x s Q E := by
  rw [Yields, hx]
  exact h

theorem ok (h : Yields x s Q E) (hx : x s = .ok a t) : Q a t := by
  rw [Yields, hx] at h
  exact h

theorem error (h : Yields x s Q E) (hx : x s = .error e t) : E e t := by
  rw [Yields, hx] at h
  exact h

theorem mono (h : Yields x s Q E) (hQ : ∀ a t, Q a t → Q' a t) (hE : ∀ e t, E e t → E' e t) : Yields x s Q' E' := by
  cases hx : x s with
  | ok a t => exact of_ok hx (hQ a t (h.ok hx))
  | error e t => exact of_error hx (hE e t (h.error hx))

theorem bind {Q : β → σ → Prop} (h : Yields x s (fun a t => Yields (f a) t Q E) E) : Yields (x >>= f) s Q E := by
  cases hx : x s with
  | ok a t =>
    rw [Yields, bind_ok hx]
    exact h.ok hx
  | error e t => exact of_error (bind_error hx) (h.error hx)

theorem chain {Q : β → σ → Prop} {P : α → σ → Prop} (h : Yields x s P E) (hf : ∀ a t, P a t → Yields (f a) t Q E) :
    Yields (x >>= f) s Q E := bind (h.mono hf fun _ _ he => he)

theorem final {P : σ → Prop} (h : Yields x s (fun _ t => P t) fun _ t => P t) : P (Action.final x s) := by
  cases hx : x s with
  | ok a t =>
    rw [final_ok hx]
    exact h.ok hx
  | error e t =>
    rw [final_error hx]
    exact h.error hx

theorem failure (h : Yields x s Q E) (he : Action.failure? x s = some e) : E e (Action.final x s) := by
  cases hx : x s with
  | ok a t =>
    rw [Action.failure?, hx] at he
    cases he
  | error e' t =>
    rw [Action.failure?, hx] at he
    cases he
    rw [final_error hx]
    exact h.error hx

theorem get_bind {f : σ → Action σ α} (h : Yields (f s) s Q E) : Yields ((get : Action σ σ) >>= f) s Q E := h

theorem attempt {Q : Except Error α → σ → Prop}
    (h : Yields x s (fun a t => Q (.ok a) t) fun e t =>
      match e with
      | .error error => Q (.error error) t
      | .abort abort => E (.abort abort) t) : Yields (Action.attempt x) s Q E := by
  cases hx : x s with
  | ok a t => exact of_ok (attempt_ok hx) (h.ok hx)
  | error e t =>
    cases e with
    | error error => exact of_ok (attempt_error hx) (h.error hx)
    | abort abort => exact of_error (attempt_abort hx) (h.error hx)

end Yields

variable {R : σ → σ → Prop}

theorem Moves.yields (h : Moves R x) (s : σ) : Yields x s (fun _ t => R s t) fun _ t => R s t := by
  cases hx : x s with
  | ok a t => exact .of_ok hx (h.ok hx)
  | error e t => exact .of_error hx (h.error hx)

/-! ### Tame actions -/

/-- Takes each state to a related one, and fails with reports only. -/
def Tame (R : σ → σ → Prop) (x : Action σ α) : Prop :=
  ∀ s, Yields x s (fun _ t => R s t) fun e t => R s t ∧ e.Reported

namespace Tame

theorem moves (h : Tame R x) : Moves R x := fun s =>
  ((h s).mono (fun _ _ hst => hst) fun _ _ hst => hst.1).final

/-- An attempt at a tame action does not fail. -/
theorem attempt (h : Tame R x) (s : σ) : Yields (Action.attempt x) s (fun _ t => R s t) fun _ _ => False :=
  .attempt ((h s).mono (fun _ _ hst => hst) fun e _ hst => by
    obtain ⟨error, rfl⟩ := hst.2
    exact hst.1)

section Preorder
variable [IsPreorder σ R]

theorem pure (a : α) : Tame R (Pure.pure a : Action σ α) := fun s => show R s s from refl s

theorem fail (e : Error) : Tame R (Action.fail e : Action σ α) := fun s => ⟨refl s, e, rfl⟩

theorem ofCodec (r : Except CodecFault α) : Tame R (Action.ofCodec r : Action σ α) := by
  cases r with
  | ok a => exact pure a
  | error fault => exact fail _

theorem bind (hx : Tame R x) (hf : ∀ a, Tame R (f a)) : Tame R (x >>= f) := fun s =>
  .bind ((hx s).mono (fun a t hst => (hf a t).mono (fun _ _ htu => IsTrans.trans _ _ _ hst htu)
    fun _ _ htu => ⟨IsTrans.trans _ _ _ hst htu.1, htu.2⟩) fun _ _ h => h)

end Preorder

end Tame

end Action

end RecordStore
