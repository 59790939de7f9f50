import RecordStore.Proofs.Actions

/-! # Notices in a bounded queue

Notices come in bursts, and now and then the waiting ones are handed to the listener. A journal beside the queue says
which of them are to be let in, how many have been handed over and how many a stop has discarded. The main statement
is that the notifier keeps to the journal: nothing that was let in is told twice or out of turn, whatever the listener
breaks on, nothing is lost on the way but what a stop discards, and every notice that came is accounted for. -/

namespace RecordStore

/-! ### What a listener takes -/

/-- The events that a listener takes when it is handed notices one after the other, after `before` others. One that
    it breaks on is lost, and the next is handed over all the same. -/
def Listener.takes (l : Listener) (typeName : String) : (before : Nat) → List Notice → List Event
  | _, [] => []
  | before, x :: rest =>
    let event := x.event typeName l.wantsEntity
    if l.breaksOn before event then l.takes typeName (before + 1) rest
    else event :: l.takes typeName (before + 1) rest

theorem Listener.takes_append (l : Listener) (typeName : String) (before : Nat) (xs ys : List Notice) :
    l.takes typeName before (xs ++ ys) =
      l.takes typeName before xs ++ l.takes typeName (before + xs.length) ys := by
  induction xs generalizing before with
  | nil => rfl
  | cons x xs ih =>
    simp only [List.cons_append, takes, ih, List.length_cons, Nat.add_right_comm before 1, ← Nat.add_assoc]
    split <;> rfl

namespace Notifier

variable {n : Notifier} {typeName : String} {l : Listener} {depth : Nat}

theorem waiting_queue {q : Queue} (hq : n.executor = .queue q) : n.waiting = q.waiting.toList := by
  rw [waiting, hq]

theorem dropped_queue {q : Queue} (hq : n.executor = .queue q) : n.dropped = q.dropped := by
  rw [dropped, hq]

/-! ### Occasions -/

/-- What a notifier is called for. At a stop it is up to the worker how many notices it still hands over. -/
inductive Occasion
  | notify (x : Notice)
  | drain
  | stop (more : Nat)

def Occasion.run (n : Notifier) : Occasion → Notifier
  | .notify x => Action.final (Notifier.notify x) n
  | .drain => n.drain
  | .stop more => n.stop more

/-- The notifier after a sequence of occasions. -/
def attend (occasions : List Occasion) (n : Notifier) : Notifier := occasions.foldl Occasion.run n

/-! ### The journal -/

/-- What is written down of the notices that have come. -/
structure Journal where
  /-- Those that were let in, in the order in which they came. -/
  accepted : List Notice := []
  /-- How many were turned away. -/
  refused : Nat := 0
  /-- How many of those that were let in have been handed over. -/
  handed : Nat := 0
  /-- How many of the rest were discarded. -/
  discarded : Nat := 0
  stopped : Bool := false

namespace Journal

/-- Those that are still to be handed over. -/
def pending (j : Journal) : List Notice := if j.stopped then [] else j.accepted.drop j.handed

/-- The first `more` that are pending are handed over, and the others are not any more. -/
def finish (j : Journal) (more : Nat) : Journal :=
  { j with
    handed := j.handed + (j.pending.take more).length
    discarded := j.discarded + (j.pending.drop more).length }

/-- A notice is let in just if nothing was stopped and fewer than `depth` are pending. All of these are handed over at
    a drain, and the first ones at a stop, which is the end of the others. -/
def next (depth : Nat) (j : Journal) : Occasion → Journal
  | .notify x =>
    if j.stopped = false ∧ j.pending.length < depth then { j with accepted := j.accepted ++ [x] }
    else { j with refused := j.refused + 1 }
  | .drain => j.finish j.pending.length
  | .stop more => { j.finish more with stopped := true }

variable {j : Journal}

theorem pending_of_stopped (hstopped : j.stopped = true) : j.pending = [] := by
  rw [pending, hstopped, if_pos rfl]

theorem pending_of_running (hrunning : j.stopped = false) : j.pending = j.accepted.drop j.handed := by
  rw [pending, hrunning, if_neg Bool.false_ne_true]

/-- Those that are handed over next come right after those that were handed over before. -/
theorem take_finish (j : Journal) (more : Nat) :
    j.accepted.take (j.finish more).handed = j.accepted.take j.handed ++ j.pending.take more := by
  show j.accepted.take (j.handed + (j.pending.take more).length) = _
  cases hs : j.stopped with
  | true => rw [pending_of_stopped hs, List.take_nil, List.length_nil, Nat.add_zero, List.append_nil]
  | false =>
    rw [List.take_add, pending_of_running hs, List.length_take]
    exact congrArg _ (List.take_eq_take_iff.mpr (by omega))

end Journal

def journal (depth : Nat) (occasions : List Occasion) : Journal := occasions.foldl (Journal.next depth) {}

/-- A notifier with a queue of that depth is as the journal says. -/
structure Serves (n : Notifier) (typeName : String) (l : Listener) (depth : Nat) (j : Journal) : Prop where
  name : n.typeName = typeName
  listener : n.listener? = some l
  queue : ∃ q, n.executor = .queue q ∧ q.depth = depth ∧ q.stopping = j.stopped ∧ q.closed = j.stopped
  /-- What is pending waits, in its order, within the depth of the queue. -/
  waiting : n.waiting = j.pending
  room : n.waiting.length ≤ depth
  /-- What was let in was handed over, or is pending, or was discarded. -/
  whole : j.handed + j.pending.length + j.discarded = j.accepted.length
  /-- What was handed over was taken or lost, each once and in its order. -/
  delivered : n.delivered.toList = l.takes typeName 0 (j.accepted.take j.handed)
  handed : n.delivered.size + n.lost = j.handed
  /-- What was turned away is counted, and nothing else is. -/
  dropped : n.dropped = j.refused
  /-- Every notice that came is accounted for. -/
  dispatched : n.dispatched = n.delivered.size + n.lost + n.dropped + n.waiting.length + j.discarded

/-! ### Handing over -/

theorem deliverLater_eq (l : Listener) (n : Notifier) (x : Notice) :
    ∃ delivered lost, deliverLater l n x = { n with delivered, lost } ∧
      delivered.toList = n.delivered.toList ++ l.takes n.typeName (n.delivered.size + n.lost) [x] ∧
      delivered.size + lost = n.delivered.size + n.lost + 1 := by
  unfold deliverLater deliver
  by_cases hbreaks : l.breaksOn (n.delivered.size + n.lost) (x.event n.typeName l.wantsEntity) = true
  · refine ⟨n.delivered, n.lost + 1, ?_, ?_, rfl⟩
    · simp only [hbreaks, ↓reduceIte]
    · simp only [Listener.takes, hbreaks, ↓reduceIte, List.append_nil]
  · refine ⟨n.delivered.push (x.event n.typeName l.wantsEntity), n.lost, ?_, ?_, ?_⟩
    · simp only [hbreaks, Bool.false_eq_true, ↓reduceIte]
    · simp only [Listener.takes, hbreaks, Bool.false_eq_true, ↓reduceIte, Array.toList_push]
    · rw [Array.size_push]
      omega

theorem handOver_eq (hl : n.listener? = some l) (xs : List Notice) : handOver xs n = xs.foldl (deliverLater l) n := by
  rw [handOver, hl]

/-- Handing notices over changes nothing but what was taken and lost. -/
theorem foldl_deliverLater (l : Listener) (xs : List Notice) (n : Notifier) :
    ∃ delivered lost, xs.foldl (deliverLater l) n = { n with delivered, lost } ∧
      delivered.toList = n.delivered.toList ++ l.takes n.typeName (n.delivered.size + n.lost) xs ∧
      delivered.size + lost = n.delivered.size + n.lost + xs.length := by
  induction xs generalizing n with
  | nil => exact ⟨n.delivered, n.lost, rfl, (List.append_nil _).symm, rfl⟩
  | cons x xs ih =>
    obtain ⟨delivered, lost, hfirst, htaken, hcount⟩ := deliverLater_eq l n x
    obtain ⟨delivered', lost', hrest, htaken', hcount'⟩ := ih { n with delivered, lost }
    refine ⟨delivered', lost', ?_, ?_, ?_⟩
    · rw [List.foldl_cons, hfirst, hrest]
    · rw [htaken', htaken, hcount, List.append_assoc]
      exact congrArg _ (l.takes_append n.typeName _ [x] xs).symm
    · rw [hcount', hcount, List.length_cons]
      omega

/-! ### One occasion -/

section Step
variable {j : Journal} (hs : n.Serves typeName l depth j)
include hs

/-- A notice that comes only meets the queue. -/
theorem Serves.notify_ok (x : Notice) : ∃ q, n.executor = .queue q ∧
    notify x n = .ok () { n with dispatched := n.dispatched + 1, executor := .queue (q.submit x) } := by
  obtain ⟨q, hq, -⟩ := hs.queue
  refine ⟨q, hq, ?_⟩
  simp only [notify, hs.listener, hq]

/-- The queue has room just if the journal says so. -/
theorem Serves.accepts_iff {q : Queue} (hq : n.executor = .queue q) :
    q.accepts = true ↔ j.stopped = false ∧ j.pending.length < depth := by
  obtain ⟨q', hq', hdepth, -, hclosed⟩ := hs.queue
  obtain rfl : q = q' := Executor.queue.inj (hq.symm.trans hq')
  have hsize : q.waiting.size = j.pending.length := by
    rw [← Array.length_toList, ← waiting_queue hq, hs.waiting]
  rw [Queue.accepts, Bool.and_eq_true, Bool.not_eq_true', decide_eq_true_eq, hclosed, hdepth, hsize]

theorem Serves.notify (x : Notice) :
    (Occasion.run n (.notify x)).Serves typeName l depth (j.next depth (.notify x)) := by
  obtain ⟨q, hq, hrun⟩ := hs.notify_ok x
  obtain ⟨q', hq', hdepth, hsame⟩ := hs.queue
  obtain rfl : q = q' := Executor.queue.inj (hq.symm.trans hq')
  have hwaiting := waiting_queue hq
  have hdropped := dropped_queue hq
  have hdispatched := hs.dispatched
  have hwhole := hs.whole
  rw [Occasion.run, Action.final_ok hrun, Journal.next]
  by_cases hin : q.accepts = true
  · obtain ⟨hrunning, hroom⟩ := (hs.accepts_iff hq).mp hin
    have hsubmit : q.submit x = { q with waiting := q.waiting.push x } := by rw [Queue.submit, if_pos hin]
    have hmore : (q.waiting.push x).toList = n.waiting ++ [x] := by rw [Array.toList_push, hwaiting]
    have hwithin : j.handed ≤ j.accepted.length := by omega
    have hpending : Journal.pending { j with accepted := j.accepted ++ [x] } = j.pending ++ [x] := by
      rw [Journal.pending_of_running hrunning]
      exact (Journal.pending_of_running (j := { j with accepted := j.accepted ++ [x] }) hrunning).trans
        (List.drop_append_of_le_length hwithin)
    rw [hsubmit, if_pos ⟨hrunning, hroom⟩]
    refine ⟨hs.name, hs.listener, ⟨_, rfl, hdepth, hsame⟩, ?_, ?_, ?_, ?_, hs.handed, hdropped ▸ hs.dropped, ?_⟩
    · rw [waiting_queue rfl, hmore, hs.waiting, hpending]
    · rw [waiting_queue rfl, hmore, hs.waiting, List.length_append, List.length_singleton]
      omega
    · rw [hpending, List.length_append, List.length_append, List.length_singleton]
      dsimp only
      omega
    · rw [List.take_append_of_le_length hwithin]
      exact hs.delivered
    · rw [waiting_queue rfl, dropped_queue rfl, hmore, List.length_append, List.length_singleton]
      dsimp only
      omega
  · have hsubmit : q.submit x = { q with dropped := q.dropped + 1 } := by rw [Queue.submit, if_neg hin]
    rw [hsubmit, if_neg fun hroom => hin ((hs.accepts_iff hq).mpr hroom)]
    refine ⟨hs.name, hs.listener, ⟨_, rfl, hdepth, hsame⟩, ?_, ?_, hwhole, hs.delivered, hs.handed, ?_, ?_⟩
    · rw [waiting_queue rfl, ← hwaiting, hs.waiting]
      rfl
    · rw [waiting_queue rfl, ← hwaiting]
      exact hs.room
    · rw [dropped_queue rfl, ← hs.dropped, hdropped]
    · rw [waiting_queue rfl, dropped_queue rfl, ← hwaiting, ← hdropped]
      dsimp only
      omega

/-- What is handed over next follows what was handed over before. -/
theorem Serves.takes_finish (more : Nat) : l.takes typeName 0 (j.accepted.take (j.finish more).handed) =
    n.delivered.toList ++ l.takes typeName (n.delivered.size + n.lost) (j.pending.take more) := by
  have hbefore : (j.accepted.take j.handed).length = j.handed := by
    have hwhole := hs.whole
    rw [List.length_take]
    omega
  rw [j.take_finish more, l.takes_append, ← hs.delivered, hbefore, Nat.zero_add, hs.handed]

/-- The worker hands over the first of the notices that wait, and leaves an empty queue, which is closed if any of them
    were left over. -/
theorem Serves.finish {q : Queue} {more : Nat} {stopped : Bool} (hstopped : j.stopped = true → stopped = true)
    (hmore : stopped = false → j.pending.length ≤ more) (hempty : q.waiting = #[]) (hdepth : q.depth = depth)
    (hdropped : q.dropped = j.refused) (hsame : q.stopping = stopped ∧ q.closed = stopped) :
    (handOver (j.pending.take more) { n with executor := .queue q }).Serves typeName l depth
      { j.finish more with stopped } := by
  obtain ⟨delivered, lost, hrun, htaken, hcount⟩ :=
    foldl_deliverLater l (j.pending.take more) { n with executor := .queue q }
  have hover := (handOver_eq (n := { n with executor := .queue q }) hs.listener (j.pending.take more)).trans hrun
  have hwhole := hs.whole
  have hsplit : (j.pending.take more).length + (j.pending.drop more).length = j.pending.length := by
    rw [← List.length_append, List.take_append_drop]
  have hpending : Journal.pending { j.finish more with stopped } = [] := by
    cases hs' : stopped with
    | true => exact Journal.pending_of_stopped rfl
    | false =>
      have hall := hmore hs'
      have hrunning : j.stopped = false := Bool.eq_false_iff.mpr fun h => by rw [hstopped h] at hs'; cases hs'
      rw [Journal.pending_of_running rfl, List.drop_eq_nil_iff]
      show j.accepted.length ≤ j.handed + (j.pending.take more).length
      rw [List.take_of_length_le hall, Journal.pending_of_running hrunning, List.length_drop]
      omega
  have hwaiting : Notifier.waiting { n with executor := .queue q, delivered, lost } = [] := by
    rw [waiting_queue rfl, hempty]
  rw [hover]
  dsimp only at htaken hcount
  refine ⟨hs.name, hs.listener, ⟨q, rfl, hdepth, hsame⟩, ?_, ?_, ?_, ?_, ?_, hdropped, ?_⟩
  · rw [hwaiting, hpending]
  · rw [hwaiting]
    exact Nat.zero_le _
  · rw [hpending]
    show j.handed + (j.pending.take more).length + 0 + (j.discarded + (j.pending.drop more).length) = j.accepted.length
    omega
  · rw [htaken, hs.name]
    exact (hs.takes_finish more).symm
  · exact hcount.trans (congrArg (· + _) hs.handed)
  · have hdispatched := hs.dispatched
    have hcounted := hs.dropped
    rw [hs.waiting] at hdispatched
    rw [hwaiting, dropped_queue rfl]
    show n.dispatched = delivered.size + lost + q.dropped + 0 + (j.discarded + (j.pending.drop more).length)
    omega

theorem Serves.drain : n.drain.Serves typeName l depth (j.next depth .drain) := by
  obtain ⟨q, hq, hdepth, hstopping, hclosed⟩ := hs.queue
  have hwaiting : q.waiting.toList = j.pending := (waiting_queue hq).symm.trans hs.waiting
  have hsize : q.waiting.size = j.pending.length := by rw [← hwaiting, Array.length_toList]
  have hdropped : q.dropped = j.refused := (dropped_queue hq).symm.trans hs.dropped
  have hdrain : ∃ q', n.drain = handOver (j.pending.take j.pending.length) { n with executor := .queue q' } ∧
      q'.waiting = #[] ∧ q'.depth = depth ∧ q'.dropped = j.refused ∧ q'.stopping = j.stopped ∧
      q'.closed = j.stopped := by
    cases hs' : j.stopped with
    | true =>
      refine ⟨{ q with waiting := #[], closed := true }, ?_, rfl, hdepth, hdropped, hstopping.trans hs', rfl⟩
      simp only [Notifier.drain, work, hq, Queue.work, hstopping, hs', ↓reduceIte, hwaiting, hsize]
    | false =>
      refine ⟨{ q with waiting := #[] }, ?_, rfl, hdepth, hdropped, hstopping.trans hs', hclosed.trans hs'⟩
      simp only [Notifier.drain, work, hq, Queue.work, hstopping, hs', Bool.false_eq_true, ↓reduceIte, hwaiting,
        List.take_length]
  obtain ⟨q', hrun, hempty, hdepth', hdropped', hsame⟩ := hdrain
  rw [hrun]
  exact hs.finish id (fun _ => Nat.le_refl _) hempty hdepth' hdropped' hsame

theorem Serves.stop (more : Nat) : (n.stop more).Serves typeName l depth (j.next depth (.stop more)) := by
  obtain ⟨q, hq, hdepth, -⟩ := hs.queue
  have hwaiting : q.waiting.toList = j.pending := (waiting_queue hq).symm.trans hs.waiting
  have hstop : n.stop more = handOver (j.pending.take more)
      { n with executor := .queue { q with waiting := #[], stopping := true, closed := true } } := by
    simp only [Notifier.stop, work, hq, Queue.work, Queue.stop, ↓reduceIte, hwaiting]
  rw [hstop]
  exact hs.finish (fun _ => rfl) (fun h => by cases h) rfl hdepth ((dropped_queue hq).symm.trans hs.dropped) ⟨rfl, rfl⟩

end Step

theorem Serves.run {j : Journal} (hs : n.Serves typeName l depth j) (o : Occasion) :
    (o.run n).Serves typeName l depth (j.next depth o) := by
  cases o with
  | notify x => exact hs.notify x
  | drain => exact hs.drain
  | stop more => exact hs.stop more

/-! ### All occasions -/

theorem Serves.attend {j : Journal} (hs : n.Serves typeName l depth j) (occasions : List Occasion) :
    (attend occasions n).Serves typeName l depth (occasions.foldl (Journal.next depth) j) := by
  induction occasions generalizing n j with
  | nil => exact hs
  | cons o occasions ih => exact ih (hs.run o)

theorem attend_append (before after : List Occasion) :
    attend (before ++ after) n = attend after (attend before n) := List.foldl_append

theorem serves_toListener (typeName : String) (l : Listener) (depth : Nat) :
    (toListener typeName l (.queue { depth })).Serves typeName l depth {} where
  name := rfl
  listener := rfl
  queue := ⟨_, rfl, rfl, rfl, rfl⟩
  waiting := rfl
  room := Nat.zero_le _
  whole := rfl
  delivered := rfl
  handed := rfl
  dropped := rfl
  dispatched := rfl

/-- Nothing is let in any more once all was stopped, and nothing handed over. -/
theorem Journal.foldl_of_stopped (depth : Nat) {j : Journal} (hstopped : j.stopped = true)
    (occasions : List Occasion) : ∃ refused, occasions.foldl (Journal.next depth) j = { j with refused } := by
  have hnone := Journal.pending_of_stopped hstopped
  induction occasions generalizing j with
  | nil => exact ⟨j.refused, rfl⟩
  | cons o occasions ih =>
    have hfinish (more : Nat) : j.finish more = j := by
      rw [Journal.finish, hnone, List.take_nil, List.drop_nil]
      rfl
    obtain ⟨refused, ho⟩ : ∃ refused, j.next depth o = { j with refused } := by
      cases o with
      | notify x => exact ⟨j.refused + 1, by rw [Journal.next, hstopped, if_neg (by simp)]⟩
      | drain => exact ⟨j.refused, hfinish _⟩
      | stop more => exact ⟨j.refused, by rw [Journal.next, hfinish, ← hstopped]⟩
    rw [List.foldl_cons, ho]
    exact ih hstopped (Journal.pending_of_stopped hstopped)

theorem journal_append (before after : List Occasion) :
    journal depth (before ++ after) = after.foldl (Journal.next depth) (journal depth before) := List.foldl_append

theorem journal_of_stop (depth : Nat) {more : Nat} {occasions : List Occasion} (hstop : .stop more ∈ occasions) :
    (journal depth occasions).stopped = true := by
  obtain ⟨before, after, rfl⟩ := List.append_of_mem hstop
  obtain ⟨refused, hafter⟩ := Journal.foldl_of_stopped depth
    (j := (journal depth before).next depth (.stop more)) rfl after
  rw [journal_append, List.foldl_cons, hafter]
  rfl

theorem Journal.foldl_of_running (depth : Nat) {j : Journal} (hrunning : j.stopped = false)
    {occasions : List Occasion} (hnone : ∀ more, .stop more ∉ occasions) :
    (occasions.foldl (Journal.next depth) j).stopped = false := by
  induction occasions generalizing j with
  | nil => exact hrunning
  | cons o occasions ih =>
    have hnext : (j.next depth o).stopped = false := by
      cases o with
      | notify x =>
        rw [Journal.next]
        split <;> exact hrunning
      | drain => exact hrunning
      | stop more => exact absurd List.mem_cons_self (hnone more)
    exact ih hnext fun more hmem => hnone more (List.mem_cons_of_mem o hmem)

/-- What a notifier with a queue does for all occasions, and for those that come next. -/
structure Punctual (n : Notifier) (typeName : String) (l : Listener) (depth : Nat) (occasions : List Occasion) :
    Prop where
  /-- The queue keeps to the journal. -/
  serves : (attend occasions n).Serves typeName l depth (journal depth occasions)
  /-- A notice never fails, whatever the listener would break on. -/
  answers : ∀ x, ∃ n', Notifier.notify x (attend occasions n) = .ok () n'
  /-- While nothing was stopped, at the next drain the listener has been handed all that was let in, each once and in
      its order. -/
  drains : (∀ more, .stop more ∉ occasions) →
    (attend (occasions ++ [.drain]) n).waiting = [] ∧
      (attend (occasions ++ [.drain]) n).delivered.toList = l.takes typeName 0 (journal depth occasions).accepted
  /-- At a stop the listener is handed the first of those that wait, as many as the worker likes, and none waits any
      more. -/
  stops : ∀ more,
    (attend (occasions ++ [.stop more]) n).waiting = [] ∧
      (attend (occasions ++ [.stop more]) n).delivered.toList = (attend occasions n).delivered.toList ++
        l.takes typeName ((attend occasions n).delivered.size + (attend occasions n).lost)
          ((attend occasions n).waiting.take more)
  /-- After a stop nothing is handed over. -/
  ended : (∃ more, .stop more ∈ occasions) → ∀ later,
    (attend (occasions ++ later) n).waiting = [] ∧
      (attend (occasions ++ later) n).delivered = (attend occasions n).delivered ∧
      (attend (occasions ++ later) n).lost = (attend occasions n).lost

theorem Serves.drained {j : Journal} (hs : n.Serves typeName l depth j) (hrunning : j.stopped = false) :
    n.drain.waiting = [] ∧ n.drain.delivered.toList = l.takes typeName 0 j.accepted := by
  have hnext := hs.drain
  have hall : (j.next depth .drain).handed = j.accepted.length := by
    have hwithin := hs.whole
    show j.handed + (j.pending.take j.pending.length).length = j.accepted.length
    rw [Journal.pending_of_running hrunning, List.length_drop] at hwithin ⊢
    rw [List.length_take, List.length_drop]
    omega
  have hrunning' : (j.next depth .drain).stopped = false := hrunning
  have hwaiting := hnext.waiting
  have hdelivered := hnext.delivered
  rw [Journal.pending_of_running hrunning', hall] at hwaiting
  rw [hall] at hdelivered
  exact ⟨hwaiting.trans List.drop_length, hdelivered.trans (congrArg _ List.take_length)⟩

theorem Serves.stopped {j : Journal} (hs : n.Serves typeName l depth j) (more : Nat) :
    (n.stop more).waiting = [] ∧ (n.stop more).delivered.toList =
      n.delivered.toList ++ l.takes typeName (n.delivered.size + n.lost) (n.waiting.take more) := by
  have hnext := hs.stop more
  refine ⟨hnext.waiting.trans (Journal.pending_of_stopped rfl), hnext.delivered.trans ?_⟩
  rw [hs.waiting]
  exact hs.takes_finish more

theorem Serves.ended {j : Journal} (hs : n.Serves typeName l depth j) (hstopped : j.stopped = true)
    (later : List Occasion) :
    (Notifier.attend later n).waiting = [] ∧ (Notifier.attend later n).delivered = n.delivered ∧
      (Notifier.attend later n).lost = n.lost := by
  have hlater := hs.attend later
  obtain ⟨refused, hj⟩ := Journal.foldl_of_stopped depth hstopped later
  rw [hj] at hlater
  have hsame : (Notifier.attend later n).delivered = n.delivered :=
    Array.toList_inj.mp (hlater.delivered.trans hs.delivered.symm)
  refine ⟨?_, hsame, ?_⟩
  · rw [hlater.waiting]
    exact Journal.pending_of_stopped hstopped
  · have hhanded := hlater.handed.trans hs.handed.symm
    rw [hsame] at hhanded
    omega

/-- A queue of any depth that it can have can be made, and whatever comes then, in whatever order: it lets a notice in
    just if there is room and nothing was stopped, hands over what it lets in, each once and in its order, counts what
    it turns away, and discards nothing but what a stop leaves over. -/
theorem punctual_of_create {c : QueueConfig} (hpos : 0 < c.depth) (hmax : c.depth ≤ Queue.maxDepth)
    (typeName : String) (l : Listener) : ∃ q, Queue.create c = .ok q ∧
      ∀ occasions, (toListener typeName l (.queue q)).Punctual typeName l c.depth occasions := by
  refine ⟨{ depth := c.depth }, ?_, fun occasions => ?_⟩
  · rw [Queue.create, QueueConfig.validate, if_neg (by omega)]
    exact if_neg (by omega)
  have hs := (serves_toListener typeName l c.depth).attend occasions
  refine ⟨hs, fun x => ?_, fun hrunning => ?_, fun more => ?_, fun hstop later => ?_⟩
  · obtain ⟨q, -, hrun⟩ := hs.notify_ok x
    exact ⟨_, hrun⟩
  · rw [attend_append]
    exact hs.drained (Journal.foldl_of_running c.depth rfl hrunning)
  · rw [attend_append]
    exact hs.stopped more
  · obtain ⟨more, hstop⟩ := hstop
    rw [attend_append]
    exact hs.ended (journal_of_stop c.depth hstop) later

/-- A queue of two notices and a listener that breaks on the second one: of a burst of three, one is turned away and
    one is lost. Two more come in time, of which the worker hands over one when it is stopped, and one comes after. -/
theorem punctual_of_burst :
    let l : Listener := ⟨false, fun before _ => before = 1⟩
    let notices (n : UInt8) : Occasion := .notify ⟨[n], 5⟩
    let occasions := [notices 1, notices 2, notices 3, .drain, notices 4, notices 5, .stop 1, notices 6]
    0 < 2 ∧ 2 ≤ Queue.maxDepth ∧ ∃ q, Queue.create ⟨2⟩ = .ok q ∧
      (toListener "T" l (.queue q)).Punctual "T" l 2 occasions ∧
      (attend occasions (toListener "T" l (.queue q))).delivered = #[⟨.raw [1], "T", 5⟩, ⟨.raw [4], "T", 5⟩] := by
  refine ⟨by decide, by decide, ?_⟩
  obtain ⟨q, hq, hall⟩ := punctual_of_create (c := ⟨2⟩) (by decide) (by decide) "T" ⟨false, fun before _ => before = 1⟩
  obtain rfl : q = { depth := 2 } := (Except.ok.inj hq).symm
  exact ⟨_, hq, hall _, by decide⟩

/-- Two notices wait when the worker is told to stop, and it ends at once: neither is handed over or counted as dropped.
    Without a listener notices are neither let in nor counted, whatever the room. -/
theorem discarded_by_stop :
    let occasions : List Occasion := [.notify ⟨[1], 5⟩, .notify ⟨[2], 5⟩, .stop 0]
    let stopped := attend occasions (toListener "T" ⟨false, fun _ _ => false⟩ (.queue { depth := 4 }))
    let unheard := attend occasions { typeName := "T", executor := .queue { depth := 1 } }
    (stopped.delivered = #[] ∧ stopped.lost = 0 ∧ stopped.dropped = 0 ∧ stopped.waiting = [] ∧
      stopped.dispatched = 2) ∧
    unheard.waiting = [] ∧ unheard.dropped = 0 ∧ unheard.dispatched = 0 := by
  decide

end Notifier

end RecordStore
