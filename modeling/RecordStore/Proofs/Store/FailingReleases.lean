import RecordStore.Proofs.Store.Breaking

/-! # Releases that fail

One of the releases may fail in the midst of a request that gives blocks back. The record whose block it was is there
still, as if the request had not come to it, nobody was told of it, and the request can be made again. -/

namespace RecordStore.Store

open RecordStore.Action
open Notifier (Told)

variable {s s' : Store} {l : Listener} {q : Request} {gone : List Record} {r : Record} {n : Nat}

/-- The store where the next `n` releases succeed and the one after them fails. -/
def failing (s : Store) (n : Nat) : Store := s.withFaults { s.memory.faults with release := [n] }

/-- All that a request is to take away is gone, and was told if it was evicted. -/
structure Completed (l : Listener) (q : Request) (s s' : Store) (gone : List Record) : Prop extends Without s s' gone where
  all : (gone : Multiset Record) = s.leaving q
  expired : s'.counters.expired = s.counters.expired + (q.tidings gone).length
  told : Told l s.notifier s'.notifier (q.tidings gone) 0

/-- Made again the request succeeds, unless the listener breaks it off. -/
def Retries (l : Listener) (q : Request) (s : Store) : Prop :=
  (∃ response s' gone, answer q s = (response, s') ∧ (∀ e, response ≠ .failed e) ∧ Completed l q s s' gone) ∨
    ¬ s.notifier.Calm ∧ ∃ s' gone r, answer q s = (.failed (.abort .listener), s') ∧ BrokenOff l q s s' gone r

/-- The release of the block of `r` failed after `n` other records were taken away. -/
structure Withheld (l : Listener) (q : Request) (n : Nat) (s s' : Store) (gone : List Record) (r : Record) : Prop
    extends Without s s' gone where
  number : gone.length = n
  /-- The record is stored as it was, in its block. -/
  kept : r ∈ s'.records
  holds : s'.memory.arena.Holds r
  /-- The others were counted and told, each of them once, and nothing else. -/
  expired : s'.counters.expired = s.counters.expired + (q.tidings gone).length
  told : Told l s.notifier s'.notifier (q.tidings gone) 0
  /-- What the request has not come to is still to be taken away, that record included. -/
  rest : ↑gone + s'.leaving q = s.leaving q
  next : r ∈ s'.leaving q
  retries : s.Answerable q → s'.Retries l q

/-- What is to be taken away and what is in the way do not depend on which calls fail. -/
theorem leaving_withFaults (s : Store) (f : Faults) (q : Request) : (s.withFaults f).leaving q = s.leaving q := by
  cases q <;> rfl

theorem answerable_withFaults (s : Store) (f : Faults) (q : Request) :
    (s.withFaults f).Answerable q ↔ s.Answerable q := by
  cases q <;> exact Iff.rfl

theorem retries (hs : s.Orderly) (hplan : s.memory.faults.release = []) (hl : s.notifier.Inline l) (hq : q.Releases)
    (hanswerable : s.Answerable q) : s.Retries l q := by
  rcases answer_unhindered hs hplan hq hanswerable with
    ⟨response, s', gone, hrun, takes, told, all, answered⟩ | ⟨s₁, s', gone, r, hrun, takes, told, last, lost, within, evicts⟩
  · exact Or.inl ⟨response, s', gone, hrun, answered, takes.toFrees.without hs, all, takes.expired,
      (takes.hands hl).told told⟩
  · refine Or.inr ⟨fun hcalm => ?_, s', gone, r, hrun, brokenOff hs hl evicts takes told last lost within⟩
    have hcalm' : s₁.notifier.Calm := takes.leads.keeps.calm hcalm
    rw [last.notifier, hcalm'.lost_notifyAll] at lost
    exact Nat.succ_ne_self _ lost.symm

/-- A request that comes to the release that fails reports it. -/
theorem withheld (hs : s.WellFormed) (hl : s.notifier.Inline l) (hq : q.Releases)
    (hfailed : (answer q (s.failing n)).2.memory.faults.release = []) : ∃ s' gone r,
      answer q (s.failing n) = (.failed (.error Memory.plannedFault), s') ∧ Withheld l q n s s' gone r := by
  have hfailing : (s.failing n).Orderly := hs.orderly.withFaults hs.steady.read
  have hgap : (s.failing n).memory.faults.release = [n] := rfl
  have hleaving : (s.failing n).leaving q = s.leaving q := leaving_withFaults s _ q
  have hgoes := answer_goes hfailing hq
  generalize answer q (s.failing n) = result at hgoes hfailed
  cases hgoes with
  | finishes takes =>
    rw [(takes.release_left hgap).2] at hfailed
    cases hfailed
  | broken takes _ last =>
    rw [((takes.trans last).release_left hgap).2] at hfailed
    cases hfailed
  | stopped takes =>
    rw [(takes.release_left hgap).2] at hfailed
    cases hfailed
  | @refused s₁ gone r takes told planned within =>
    obtain ⟨hle, hleft⟩ := takes.release_left hgap
    have hlength : gone.length = n := by
      rw [Faults.isDue, Faults.gaps, hleft, List.head?_cons, decide_eq_true_eq, Option.some.injEq] at planned
      omega
    have hgone : (gone : Multiset Record) ≤ (s.failing n).leaving q := by
      rw [← Multiset.coe_add] at within
      exact (Multiset.le_add_right _ _).trans within
    have hrest := takes.leaving hgone
    have hnext : r ∈ s₁.leaving q := by
      rw [← hrest, ← Multiset.coe_add, Multiset.add_le_add_iff_left, Multiset.coe_singleton,
        Multiset.singleton_le] at within
      exact within
    have hkept : r ∈ s₁.records := Multiset.mem_of_le (leaving_le s₁ q) hnext
    have horderly := takes.orderly hfailing
    have horderly' : (s₁.withFaults (s₁.memory.faults.pass .release)).Orderly :=
      horderly.withFaults ((s₁.memory.faults.gaps_pass (d := .read) (by decide)).trans horderly.legible)
    have hwithout := takes.toFrees.without hfailing
    have hinline := (takes.hands hl).inline
    refine ⟨_, gone, r, rfl, ⟨hwithout.records, hwithout.once, hwithout.blocks, horderly'.consistent, hwithout.owns⟩,
      hlength, hkept, ?_, takes.expired, (takes.hands hl).told told, ?_, ?_, fun hanswerable => ?_⟩
    · exact holds_of_mem (s := s₁.withFaults .never) horderly.wellFormed hkept
    · rw [leaving_withFaults, hrest, hleaving]
    · rwa [leaving_withFaults]
    · refine retries horderly' hfailed hinline hq ?_
      rw [answerable_withFaults, takes.answerable hgone]
      exact (answerable_withFaults s _ q).mpr hanswerable

variable {schema : Schema} {config : StoreConfig} {memory : Memory} {notifier : Notifier} {clock : Clock}
  {draw : Nat → Nat}

/-- If a release fails in the course of a request, the request reports that error and the record stays. Made again it
    takes away what is left, unless a payload is in the way. -/
theorem withheld_of_run (hs : create schema config memory notifier clock draw = .ok s) (hsteady : memory.Steady)
    (hsound : memory.arena.Sound) (hl : notifier.Inline l) (requests : List Request)
    (hfits : ∀ q ∈ requests, q.Fits schema) (hq : q.Releases)
    (hfailed : (answer q ((run requests s).2.failing n)).2.memory.faults.release = []) : ∃ s' gone r,
      answer q ((run requests s).2.failing n) = (.failed (.error Memory.plannedFault), s') ∧
        Withheld l q n (run requests s).2 s' gone r := by
  obtain ⟨hvalid, rfl⟩ := of_create hs
  have hmade : (made schema config memory notifier clock draw).WellFormed := wellFormed_made hvalid hsteady hsound
  have hstays := run_attends requests (made schema config memory notifier clock draw) l hl
  exact withheld (run_wellFormed hmade hfits).1 hstays.1 hq hfailed

/-- Two entries are over when they are swept, and the second one cannot be released. -/
theorem withheld_of_second_release : ∃ s s' gone r,
    s = (run [.put [1, 0, 1, 1] 5, .put [1, 0, 1, 0] 5, .setClock 9]
      (made ⟨"Entry", []⟩ { minSegments := 2, maxSegments := 3, segmentCapacity := 2 } .empty
        (.toListener "Entry" ⟨true, fun _ _ => false⟩ .inline) ⟨0⟩ (Placement.evenly 2 3))).2 ∧
      answer .evictExpired (s.failing 1) = (.failed (.error Memory.plannedFault), s') ∧
      Withheld ⟨true, fun _ _ => false⟩ .evictExpired 1 s s' gone r := by
  have hmade : create ⟨"Entry", []⟩ { minSegments := 2, maxSegments := 3, segmentCapacity := 2 } .empty
      (.toListener "Entry" ⟨true, fun _ _ => false⟩ .inline) ⟨0⟩ (Placement.evenly 2 3) = .ok (made _ _ _ _ _ _) := rfl
  have hfour : 4 < Record.lengthLimit := by decide
  have hfits : ∀ q ∈ [Request.put [1, 0, 1, 1] 5, .put [1, 0, 1, 0] 5, .setClock 9], q.Fits ⟨"Entry", []⟩ := by
    simp only [List.forall_mem_cons]
    exact ⟨hfour, hfour, trivial, fun _ hq => absurd hq List.not_mem_nil⟩
  obtain ⟨s', gone, r, hrun, hwithheld⟩ := withheld_of_run (q := .evictExpired) (n := 1) hmade ⟨rfl, rfl, rfl⟩
    (Arena.sound_empty none) ⟨rfl, rfl⟩ _ hfits trivial (by decide +kernel)
  exact ⟨_, s', gone, r, rfl, hrun, hwithheld⟩

end RecordStore.Store
