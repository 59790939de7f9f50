import Mathlib.Data.List.Forall2
import RecordStore.Proofs.Actions
import RecordStore.Proofs.Occupants

/-! # Actions in lockstep

Two actions run in lockstep if from related states both answer, with related answers, or both fail, with failures that
differ in the handles they name at most, and the states that they leave are related again. Chains of such actions run
in lockstep too. -/

namespace RecordStore

/-- An error without the handle that it names. -/
def Error.unnamed : Error → Error
  | .invalidHandle _ => .invalidHandle .null
  | .outOfBounds _ offset length size => .outOfBounds .null offset length size
  | e => e

def Failure.unnamed : Failure → Failure
  | .error e => .error e.unnamed
  | .abort a => .abort a

namespace Action

variable {σ σ' τ τ' α α' β β' : Type} {R : σ → σ' → Prop} {S : τ → τ' → Prop} {A : α → α' → Prop} {B : β → β' → Prop}

/-- Two runs have come to the same end. -/
inductive Agree (R : σ → σ' → Prop) (A : α → α' → Prop) :
    EStateM.Result Failure σ α → EStateM.Result Failure σ' α' → Prop
  | ok {a a' s s'} (ha : A a a') (hs : R s s') : Agree R A (.ok a s) (.ok a' s')
  | error {e e' s s'} (he : e.unnamed = e'.unnamed) (hs : R s s') : Agree R A (.error e s) (.error e' s')

/-- From related states two actions come to the same end. -/
def InStep (R : σ → σ' → Prop) (A : α → α' → Prop) (x : Action σ α) (y : Action σ' α') : Prop :=
  ∀ s s', R s s' → Agree R A (x s) (y s')

/-- What two actions in lockstep answer when their reported errors are answers too. -/
inductive Attempted (A : α → α' → Prop) : Except Error α → Except Error α' → Prop
  | ok {a a'} (ha : A a a') : Attempted A (.ok a) (.ok a')
  | error {e e' : Error} (he : e.unnamed = e'.unnamed) : Attempted A (.error e) (.error e')

theorem Agree.refl {r : EStateM.Result Failure σ α} : Agree Eq Eq r r := by
  cases r with
  | ok a s => exact .ok rfl rfl
  | error e s => exact .error rfl rfl

namespace InStep

/-- How two actions in lockstep end. -/
theorem cases {x : Action σ α} {x' : Action σ' α'} {s : σ} {s' : σ'} (hx : InStep R A x x') (hs : R s s') :
    (∃ a a' t t', x s = .ok a t ∧ x' s' = .ok a' t' ∧ A a a' ∧ R t t') ∨
      ∃ e e' t t', x s = .error e t ∧ x' s' = .error e' t' ∧ e.unnamed = e'.unnamed ∧ R t t' := by
  have hagree := hx s s' hs
  generalize x s = r, x' s' = r' at hagree
  cases hagree with
  | ok ha ht => exact Or.inl ⟨_, _, _, _, rfl, rfl, ha, ht⟩
  | error he ht => exact Or.inr ⟨_, _, _, _, rfl, rfl, he, ht⟩

theorem refl (x : Action σ α) : InStep Eq Eq x x := by
  rintro s _ rfl
  exact Agree.refl

theorem pure {a : α} {a' : α'} (ha : A a a') : InStep R A (Pure.pure a) (Pure.pure a') := fun _ _ hs => .ok ha hs

theorem throw {e e' : Failure} (he : e.unnamed = e'.unnamed) :
    InStep R A (MonadExcept.throw e : Action σ α) (MonadExcept.throw e' : Action σ' α') := fun _ _ hs => .error he hs

theorem fail {e e' : Error} (he : e.unnamed = e'.unnamed) :
    InStep R A (Action.fail e : Action σ α) (Action.fail e' : Action σ' α') := throw (congrArg Failure.error he)

theorem abort (a : Abort) : InStep R A (Action.abort a : Action σ α) (Action.abort a : Action σ' α') := throw rfl

theorem ofCodec (r : Except CodecFault α) :
    InStep R Eq (Action.ofCodec r : Action σ α) (Action.ofCodec r : Action σ' α) := by
  cases r with
  | ok a => exact pure rfl
  | error fault => exact fail rfl

theorem bind {x : Action σ α} {x' : Action σ' α'} {f : α → Action σ β} {f' : α' → Action σ' β'} (hx : InStep R A x x')
    (hf : ∀ a a', A a a' → InStep R B (f a) (f' a')) : InStep R B (x >>= f) (x' >>= f') := by
  intro s s' hs
  rcases hx.cases hs with ⟨a, a', t, t', hrun, hrun', ha, ht⟩ | ⟨e, e', t, t', hrun, hrun', he, ht⟩
  · rw [bind_ok hrun, bind_ok hrun']
    exact hf a a' ha t t' ht
  · rw [bind_error hrun, bind_error hrun']
    exact .error he ht

/-- Where the answers are the same, one value stands for both. -/
theorem bind_same {x : Action σ α} {x' : Action σ' α} {f : α → Action σ β} {f' : α → Action σ' β'}
    (hx : InStep R Eq x x') (hf : ∀ a, InStep R B (f a) (f' a)) : InStep R B (x >>= f) (x' >>= f') :=
  hx.bind fun a _ ha => ha ▸ hf a

theorem attempt {x : Action σ α} {x' : Action σ' α'} (hx : InStep R A x x') :
    InStep R (Attempted A) (Action.attempt x) (Action.attempt x') := by
  intro s s' hs
  rcases hx.cases hs with ⟨a, a', t, t', hrun, hrun', ha, ht⟩ | ⟨e, e', t, t', hrun, hrun', he, ht⟩
  · rw [attempt_ok hrun, attempt_ok hrun']
    exact .ok (.ok ha) ht
  · cases e with
    | error e =>
      cases e' with
      | error e' =>
        rw [attempt_error hrun, attempt_error hrun']
        exact .ok (.error (Failure.error.inj he)) ht
      | abort a' => cases he
    | abort a =>
      cases e' with
      | error e' => cases he
      | abort a' =>
        rw [attempt_abort hrun, attempt_abort hrun']
        exact .error he ht

/-- What runs in lockstep on a part of the state does so on the whole. -/
theorem on {part : σ → τ} {replace : σ → τ → σ} {vacant : τ} {part' : σ' → τ'} {replace' : σ' → τ' → σ'}
    {vacant' : τ'} {x : Action τ α} {x' : Action τ' α'} (hx : InStep S A x x')
    (hpart : ∀ s s', R s s' → S (part s) (part' s'))
    (hreplace : ∀ s s' t t', R s s' → S t t' → R (replace (replace s vacant) t) (replace' (replace' s' vacant') t')) :
    InStep R A (Action.on part replace vacant x) (Action.on part' replace' vacant' x') := by
  intro s s' hs
  rcases hx.cases (hpart s s' hs) with ⟨a, a', t, t', hrun, hrun', ha, ht⟩ | ⟨e, e', t, t', hrun, hrun', he, ht⟩
  · simp only [Action.on, hrun, hrun']
    exact .ok ha (hreplace s s' t t' hs ht)
  · simp only [Action.on, hrun, hrun']
    exact .error he (hreplace s s' t t' hs ht)

end InStep

end Action

/-! ### Slots -/

/-- The same slots are taken, and what lies in them is related. -/
def Matched {α β : Type} (R : α → β → Prop) (slots : Array (Option α)) (slots' : Array (Option β)) : Prop :=
  List.Forall₂ (Option.Rel R) slots.toList slots'.toList

namespace Matched

variable {α β : Type} {R : α → β → Prop} {slots : Array (Option α)} {slots' : Array (Option β)} {x? : Option α}
  {y? : Option β}

theorem size_eq (h : Matched R slots slots') : slots.size = slots'.size := h.length_eq

theorem occupant? (h : Matched R slots slots') (i : Nat) :
    Option.Rel R (RecordStore.occupant? slots i) (RecordStore.occupant? slots' i) := by
  by_cases hi : i < slots.size
  · have hi' : i < slots'.size := h.size_eq ▸ hi
    rw [occupant?_eq_getElem hi, occupant?_eq_getElem hi']
    exact List.Forall₂.get h hi hi'
  · have hi' : ¬ i < slots'.size := h.size_eq ▸ hi
    unfold RecordStore.occupant?
    rw [Array.getElem?_eq_none (Nat.le_of_not_lt hi), Array.getElem?_eq_none (Nat.le_of_not_lt hi')]
    exact .none

theorem replicate (n : Nat) : Matched R (Array.replicate n none) (Array.replicate n none) := by
  unfold Matched
  rw [Array.toList_replicate, Array.toList_replicate]
  induction n with
  | zero => exact .nil
  | succ n ih => exact .cons .none ih

theorem setIfInBounds (h : Matched R slots slots') (i : Nat) (hx : Option.Rel R x? y?) :
    Matched R (slots.setIfInBounds i x?) (slots'.setIfInBounds i y?) := by
  unfold Matched at h ⊢
  rw [Array.toList_setIfInBounds, Array.toList_setIfInBounds]
  generalize slots.toList = l, slots'.toList = l' at h
  induction h generalizing i with
  | nil => exact .nil
  | cons hhead hrest ih =>
    cases i with
    | zero => exact .cons hx hrest
    | succ i => exact .cons hhead (ih i)

theorem isNone_eq (h : Matched R slots slots') (i : Nat) :
    (RecordStore.occupant? slots i).isNone = (RecordStore.occupant? slots' i).isNone := by
  have hi := h.occupant? i
  generalize RecordStore.occupant? slots i = x?, RecordStore.occupant? slots' i = y? at hi
  cases hi <;> rfl

theorem contents (h : Matched R slots slots') :
    List.Forall₂ R (slots.toList.filterMap id) (slots'.toList.filterMap id) :=
  List.rel_filterMap (fun _ _ hx => hx) h

end Matched

end RecordStore
