import RecordStore.Segment.Probe

/-! # Running actions

How a chain of actions runs, one link at a time: what an action answers, or how it fails, is put in its place,
and the rest goes on from the state it leaves. -/

namespace RecordStore

namespace Action
variable {σ τ α β : Type} {x : Action σ α} {f : α → Action σ β} {s t : σ} {a : α}

theorem bind_ok (h : x s = .ok a t) : (x >>= f) s = f a t := by
  show EStateM.bind x f s = f a t
  simp only [EStateM.bind, h]

theorem bind_error {e : Failure} (h : x s = .error e t) : (x >>= f) s = .error e t := by
  show EStateM.bind x f s = .error e t
  simp only [EStateM.bind, h]

@[simp] theorem pure_run : (pure a : Action σ α) s = .ok a s := rfl

@[simp] theorem ofCodec_ok : (ofCodec (.ok a) : Action σ α) s = .ok a s := rfl

@[simp] theorem get_bind (f : σ → Action σ β) : ((get : Action σ σ) >>= f) s = f s s := rfl

@[simp] theorem modify_bind (g : σ → σ) (f : Unit → Action σ β) :
    ((modify g : Action σ Unit) >>= f) s = f () (g s) := rfl

@[simp] theorem pure_bind_run : ((pure a : Action σ α) >>= f) s = f a s := rfl

theorem attempt_ok (h : x s = .ok a t) : attempt x s = .ok (.ok a) t := by
  simp only [attempt, h]

theorem attempt_error {e : Error} (h : x s = .error (.error e) t) : attempt x s = .ok (.error e) t := by
  simp only [attempt, h]

theorem attempt_abort {e : Abort} (h : x s = .error (.abort e) t) : attempt x s = .error (.abort e) t := by
  simp only [attempt, h]

/-- The state that an action leaves, whether it answers or fails. -/
def final (x : Action σ α) (s : σ) : σ :=
  match x s with
  | .ok _ t | .error _ t => t

theorem final_ok (h : x s = .ok a t) : final x s = t := by
  simp only [final, h]

theorem final_error {e : Failure} (h : x s = .error e t) : final x s = t := by
  simp only [final, h]

/-- The failure of an action that does not answer. -/
def failure? (x : Action σ α) (s : σ) : Option Failure :=
  match x s with
  | .ok .. => none
  | .error e _ => some e

end Action

namespace Segment
variable {α : Type} {a : α} {t : State}

theorem onMemory_ok {x : Action Memory α} {m : Memory} (h : x t.memory = .ok a m) :
    onMemory x t = .ok a { t with memory := m } := by
  simp only [onMemory, Action.on, h]

theorem onMemory_read {x : Action Memory α} (h : x t.memory = .ok a t.memory) : onMemory x t = .ok a t :=
  onMemory_ok h

theorem onMemory_error {x : Action Memory α} {m : Memory} {e : Failure} (h : x t.memory = .error e m) :
    onMemory x t = .error e { t with memory := m } := by
  simp only [onMemory, Action.on, h]

theorem onNotifier_ok {x : Action Notifier α} {n : Notifier} (h : x t.notifier = .ok a n) :
    onNotifier x t = .ok a { t with notifier := n } := by
  simp only [onNotifier, Action.on, h]

theorem onNotifier_error {x : Action Notifier α} {n : Notifier} {e : Failure} (h : x t.notifier = .error e n) :
    onNotifier x t = .error e { t with notifier := n } := by
  simp only [onNotifier, Action.on, h]

theorem onCounters_ok {x : Action Counters α} {c : Counters} (h : x t.counters = .ok a c) :
    onCounters x t = .ok a { t with counters := c } := by
  simp only [onCounters, Action.on, h]

theorem onCounters_error {x : Action Counters α} {c : Counters} {e : Failure} (h : x t.counters = .error e c) :
    onCounters x t = .error e { t with counters := c } := by
  simp only [onCounters, Action.on, h]

end Segment

end RecordStore
