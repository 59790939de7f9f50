import RecordStore.Proofs.Segment.Runs
import RecordStore.Proofs.Store.Accounts
import RecordStore.Proofs.Store.ListenerStays

/-! # Listeners that break

A listener may break on any event, in the midst of a request that evicts. The record of the event is gone by then, and
counted, and nothing has happened to those that were to follow. Whoever asks again, as often as it takes, has all of them
evicted, and no event is raised twice. -/

namespace RecordStore.Store

open RecordStore.Action
open Notifier (Hands Told)

variable {s s' s'' : Store} {l : Listener} {q : Request} {gone : List Record} {r : Record} {n : Nat}

/-! ### What is left -/

/-- The figures of a store agree with what it holds, and searches in every segment end where they should. -/
structure Consistent (s : Store) : Prop where
  items : s.size = s.records.card
  bytes : s.bytesUsed = UInt64.ofNat (s.records.map fun r => 16 + r.payload.length).sum
  /-- Each slot with a handle has a record, which is all that its block holds. -/
  stored : ∀ i g j h, s.segment? i = some g → g.slot? j = some h →
    ∃ r ∈ s.records, r.handle = h ∧ s.memory.arena.Holds r
  searchable : ∀ i g, s.segment? i = some g → (s.part g).Searchable
  /-- If it has the arena for itself, the live blocks are those of its records, and the bytes agree. -/
  accounted : s.Owns → s.Accounted

theorem Orderly.consistent (hs : s.Orderly) : s.Consistent where
  items := hs.wellFormed.items
  bytes := hs.wellFormed.bytes
  stored _ _ j _ hi hj := exists_record (s := s.withFaults .never) hs.wellFormed hi (mem_held.mpr ⟨j, hj⟩)
  searchable _ _ hi := (hs.wellFormed.inOrder hi).searchable hs.legible
  accounted howns := by
    have h := accounted hs.wellFormed howns
    exact ⟨h.entries, h.live, h.bytes, h.allocated, h.stored, h.counted, h.owned, h.balance⟩

/-- Some records have gone with their blocks, and the others are there as they were. -/
structure Without (s s' : Store) (gone : List Record) : Prop where
  records : s'.records + ↑gone = s.records
  /-- No record has gone twice. -/
  once : gone.Nodup
  blocks : ∀ h, s'.memory.arena.block? h = if h ∈ gone.map (·.handle) then none else s.memory.arena.block? h
  consistent : s'.Consistent
  owns : s.Owns → s'.Owns

theorem Frees.without (h : Frees s s' gone) (hs : s.Orderly) : Without s s' gone where
  records := h.split
  once := Multiset.coe_nodup.mp (Multiset.nodup_of_le h.le (nodup_records (s := s.withFaults .never) hs.wellFormed))
  blocks := h.block? hs
  consistent := (h.orderly hs).consistent
  owns := h.leads.keeps.owns

/-! ### Breaking off -/

/-- The listener broke on the event of `r` after some others were evicted. -/
structure BrokenOff (l : Listener) (q : Request) (s s' : Store) (gone : List Record) (r : Record) : Prop
    extends Without s s' (gone ++ [r]) where
  within : ((gone ++ [r] : List Record) : Multiset Record) ≤ s.leaving q
  expired : s'.counters.expired = s.counters.expired + (gone.length + 1)
  /-- The others were told, and the event of `r` was dispatched and lost. -/
  told : Told l s.notifier s'.notifier (gone.map Record.notice) 1

/-- All that was over for a request is evicted, and each event was raised once. The listener took some, in their order,
    and broke on the others. -/
structure Cleared (l : Listener) (q : Request) (s s' : Store) (gone : List Record) : Prop extends Without s s' gone where
  all : (gone : Multiset Record) = s.leaving q
  expired : s'.counters.expired = s.counters.expired + gone.length
  hands : Hands l s.notifier s'.notifier (gone.map Record.notice)

/-- A request is made again each time the listener breaks it off, `n` times at most. -/
def persist (q : Request) : Nat → Store → Response × Store
  | 0, s => answer q s
  | n + 1, s =>
    match answer q s with
    | (.failed (.abort .listener), s') => persist q n s'
    | result => result

/-- A listener that breaks does no harm. -/
structure Persistent (l : Listener) (s : Store) : Prop where
  brokenOff : ∀ q s', q.Evicts → answer q s = (.failed (.abort .listener), s') → ∃ gone r, BrokenOff l q s s' gone r
  cleared : ∀ q n, q.Evicts → s.Answerable q → (s.leaving q).card ≤ n → ∃ response s' gone,
    persist q n s = (response, s') ∧ (∀ e, response ≠ .failed e) ∧ Cleared l q s s' gone

theorem brokenOff {s₁ : Store} (hs : s.Orderly) (hl : s.notifier.Inline l) (hq : q.Evicts) (takes : Takes q s s₁ gone)
    (told : s₁.notifier.lost = s.notifier.lost) (last : Takes q s₁ s' [r])
    (lost : s'.notifier.lost = s₁.notifier.lost + 1)
    (within : ((gone ++ [r] : List Record) : Multiset Record) ≤ s.leaving q) : BrokenOff l q s s' gone r where
  toWithout := (takes.trans last).toFrees.without hs
  within := within
  expired := by rw [(takes.trans last).expired, hq.tidings, List.length_map, List.length_append, List.length_singleton]
  told := by
    have hhands := takes.hands hl
    have hlast := last.hands hhands.inline
    rw [hq.tidings] at hhands hlast
    exact (hhands.told told).broken hlast lost

theorem answer_brokenOff (hs : s.Orderly) (hl : s.notifier.Inline l) (hq : q.Evicts)
    (hrun : answer q s = (.failed (.abort .listener), s')) : ∃ gone r, BrokenOff l q s s' gone r := by
  have hgoes := answer_goes hs hq.releases
  rw [hrun] at hgoes
  cases hgoes with
  | finishes _ _ _ answered => exact absurd rfl (answered _)
  | broken takes told last lost within => exact ⟨_, _, brokenOff hs hl hq takes told last lost within⟩

/-! ### Asking again -/

theorem persist_of_answered {response : Response} (hrun : answer q s = (response, s')) (hanswered : ∀ e, response ≠ .failed e) :
    persist q n s = (response, s') := by
  cases n with
  | zero => exact hrun
  | succ n =>
    unfold persist
    rw [hrun]
    split
    · rename_i heq
      cases heq
      exact absurd rfl (hanswered _)
    · rfl

/-- Where no release fails and no payload is in the way, a request takes all away, or the listener breaks it off. -/
theorem answer_unhindered (hs : s.Orderly) (hplan : s.memory.faults.release = []) (hq : q.Releases)
    (hanswerable : s.Answerable q) :
    (∃ response s' gone, answer q s = (response, s') ∧ Takes q s s' gone ∧ s'.notifier.lost = s.notifier.lost ∧
      (gone : Multiset Record) = s.leaving q ∧ ∀ e, response ≠ .failed e) ∨
    ∃ s₁ s' gone r, answer q s = (.failed (.abort .listener), s') ∧ Takes q s s₁ gone ∧
      s₁.notifier.lost = s.notifier.lost ∧ Takes q s₁ s' [r] ∧ s'.notifier.lost = s₁.notifier.lost + 1 ∧
      ((gone ++ [r] : List Record) : Multiset Record) ≤ s.leaving q ∧ q.Evicts := by
  have hgoes := answer_goes hs hq
  generalize answer q s = result at hgoes
  cases hgoes with
  | finishes takes told all answered => exact Or.inl ⟨_, _, _, rfl, takes, told, all, answered⟩
  | refused takes told planned within =>
    rw [takes.unplanned hplan, Faults.isDue, Faults.gaps, hplan] at planned
    cases planned
  | broken takes told last lost within evicts =>
    exact Or.inr ⟨_, _, _, _, rfl, takes, told, last, lost, within, evicts⟩
  | stopped takes told within spoilt => exact absurd hanswerable spoilt

/-- If it is asked as often as there are records to evict, it evicts them all. -/
theorem persist_takes (hs : s.Orderly) (hplan : s.memory.faults.release = []) (hq : q.Evicts)
    (hanswerable : s.Answerable q) (hn : (s.leaving q).card ≤ n) : ∃ response s' gone, persist q n s = (response, s') ∧
      (∀ e, response ≠ .failed e) ∧ Takes q s s' gone ∧ (gone : Multiset Record) = s.leaving q := by
  induction n generalizing s with
  | zero =>
    rcases answer_unhindered hs hplan hq.releases hanswerable with
      ⟨response, s', gone, hrun, takes, -, all, answered⟩ | ⟨s₁, s', gone, r, -, -, -, -, -, within, -⟩
    · exact ⟨response, s', gone, hrun, answered, takes, all⟩
    · rw [Multiset.card_eq_zero.mp (Nat.le_zero.mp hn)] at within
      exact absurd (Multiset.mem_of_le within (List.mem_append_right gone (List.mem_singleton_self r)))
        (Multiset.notMem_zero r)
  | succ n ih =>
    rcases answer_unhindered hs hplan hq.releases hanswerable with
      ⟨response, s', gone, hrun, takes, -, all, answered⟩ | ⟨s₁, s', gone, r, hrun, takes, -, last, -, within, -⟩
    · exact ⟨response, s', gone, persist_of_answered hrun answered, answered, takes, all⟩
    · -- One record more has gone, so that what is left to evict is less.
      have hboth := takes.trans last
      have hplan' : s'.memory.faults.release = [] := by rw [hboth.unplanned hplan, hplan]
      have hrest := hboth.leaving within
      have hcard := congrArg Multiset.card hrest
      rw [Multiset.card_add, Multiset.coe_card, List.length_append, List.length_singleton] at hcard
      obtain ⟨response, s'', gone', hpersist, answered, takes', all⟩ := ih (hboth.orderly hs) hplan'
        ((hboth.answerable within).mpr hanswerable) (by omega)
      have hagain : persist q (n + 1) s = persist q n s' := by
        simp only [persist, hrun]
      refine ⟨response, s'', gone ++ [r] ++ gone', hagain.trans hpersist, answered, hboth.trans takes', ?_⟩
      rw [← hrest, ← all, Multiset.coe_add]

theorem persistent (hs : s.WellFormed) (hl : s.notifier.Inline l) : s.Persistent l where
  brokenOff _ _ hq hrun := answer_brokenOff hs.orderly hl hq hrun
  cleared q n hq hanswerable hn := by
    obtain ⟨response, s', gone, hrun, answered, takes, all⟩ :=
      persist_takes hs.orderly hs.steady.release hq hanswerable hn
    have hhands := takes.hands hl
    have hexpired := takes.expired
    rw [hq.tidings] at hhands hexpired
    rw [List.length_map] at hexpired
    exact ⟨response, s', gone, hrun, answered, takes.toFrees.without hs.orderly, all, hexpired, hhands⟩

variable {schema : Schema} {config : StoreConfig} {memory : Memory} {notifier : Notifier} {clock : Clock}
  {draw : Nat → Nat}

/-- Whatever has been asked of a store, and however often its listener has broken by then, the listener does no harm. A
    store that was given an arena without blocks has it for itself. -/
theorem persistent_of_run (hs : create schema config memory notifier clock draw = .ok s) (hsteady : memory.Steady)
    (hsound : memory.arena.Sound) (hl : notifier.Inline l) (requests : List Request)
    (hfits : ∀ q ∈ requests, q.Fits schema) : (run requests s).2.Persistent l ∧
      ((∀ h, memory.arena.block? h = none) → (run requests s).2.Owns) := by
  obtain ⟨hvalid, rfl⟩ := of_create hs
  have hmade : (made schema config memory notifier clock draw).WellFormed := wellFormed_made hvalid hsteady hsound
  obtain ⟨hrun, howned⟩ := run_wellFormed hmade hfits
  have hstays := run_attends requests (made schema config memory notifier clock draw) l hl
  exact ⟨persistent hrun hstays.1, fun hunused => howned fun h hlive => absurd (hunused h) hlive⟩

/-- The listener breaks on the first event and then on the second. -/
theorem persistent_of_breaks :
    (run [.put [1, 0, 1, 1] 5, .put [1, 0, 1, 0] 5, .setClock 9, .contains (.bool true)]
      (made ⟨"Entry", []⟩ { minSegments := 2, maxSegments := 3, segmentCapacity := 2 } .empty
        (.toListener "Entry" ⟨true, fun before _ => before < 2⟩ .inline) ⟨0⟩ (Placement.evenly 2 3))).2.Persistent
        ⟨true, fun before _ => before < 2⟩ := by
  have hmade : create ⟨"Entry", []⟩ { minSegments := 2, maxSegments := 3, segmentCapacity := 2 } .empty
      (.toListener "Entry" ⟨true, fun before _ => before < 2⟩ .inline) ⟨0⟩ (Placement.evenly 2 3) =
      .ok (made _ _ _ _ _ _) := rfl
  refine (persistent_of_run hmade ⟨rfl, rfl, rfl⟩ (Arena.sound_empty none) ⟨rfl, rfl⟩ _ ?_).1
  have hfour : 4 < Record.lengthLimit := by decide
  simp only [List.forall_mem_cons]
  exact ⟨hfour, hfour, trivial, trivial, fun _ hq => absurd hq List.not_mem_nil⟩

end RecordStore.Store
