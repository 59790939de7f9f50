import RecordStore.Failure

/-! # Actions

An action changes a state and gives an answer or a failure. A failed action does not take back what it has done
so far: the state it leaves is the state that remains. -/

namespace RecordStore

/-- A step on a state of type `σ` with an answer of type `α`. -/
abbrev Action (σ α : Type) := EStateM Failure σ α

namespace Action

variable {σ τ α : Type}

@[inline] def fail (e : Error) : Action σ α := throw (.error e)

@[inline] def abort (a : Abort) : Action σ α := throw (.abort a)

/-- The answer or error of a computation that touches no state. -/
@[inline] def ofExcept : Except Error α → Action σ α
  | .ok a => pure a
  | .error e => fail e

/-- The value or fault of reading or writing a payload. -/
@[inline] def ofCodec : Except CodecFault α → Action σ α
  | .ok a => pure a
  | .error fault => fail (.codec fault)

/-- Runs an action on a part of the state. The part is taken out first, leaving `vacant`, so that nothing else
    holds it while it changes. -/
@[inline] def on (part : σ → τ) (replace : σ → τ → σ) (vacant : τ) (x : Action τ α) : Action σ α := fun s =>
  let inner := part s
  let outer := replace s vacant
  match x inner with
  | .ok a inner => .ok a (replace outer inner)
  | .error e inner => .error e (replace outer inner)

/-- Runs an action and answers its reported error, if it has one, as a value. -/
@[inline] def attempt (x : Action σ α) : Action σ (Except Error α) := fun s =>
  match x s with
  | .ok a s => .ok (.ok a) s
  | .error (.error e) s => .ok (.error e) s
  | .error (.abort a) s => .error (.abort a) s

end Action

end RecordStore
