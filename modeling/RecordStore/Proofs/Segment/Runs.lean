import RecordStore.Proofs.Segment.Clearing
import RecordStore.Proofs.Segment.Finding
import RecordStore.Proofs.Segment.Storing

/-! # Runs of a segment

Every request leaves a segment intact, also one that is refused or that breaks off on a listener. So in every state
that a segment can come to a search ends where it should, without marks for slots that were emptied. -/

namespace RecordStore.Segment

/-- What may be asked of a segment. The clock may be set to any time in between. -/
inductive Request
  | put (key : Value) (r : Record)
  | contains (key : Value)
  | getRecord (key : Value)
  | get (key : Value)
  | remove (key : Value)
  | matching (tm : Template)
  | evictExpired
  | destroy
  | setClock (wall : Int)

namespace Request

/-- A record is put under the key that its payload gives, and its length can be written. -/
def Admissible : Request → Prop
  | put key r => Payload.key r.payload = .ok key ∧ r.payload.length < Record.lengthLimit
  | _ => True

/-- The state that a request leaves. -/
def run : Request → State → State
  | put key r => Action.final (Segment.put key r)
  | contains key => Action.final (Segment.contains key)
  | getRecord key => Action.final (Segment.getRecord? key)
  | get key => Action.final (Segment.get? key)
  | remove key => Action.final (Segment.remove key)
  | matching tm => Action.final (Segment.matching tm)
  | evictExpired => Action.final Segment.evictExpired
  | destroy => Action.final Segment.destroy
  | setClock wall => fun t => { t with clock := t.clock.set wall }

end Request

/-- The state after some requests, one after the other. -/
def run (requests : List Request) (t : State) : State := requests.foldl (fun t q => q.run t) t

variable {t : State} {k : Value}

/-! ### What every request keeps -/

theorem Leads.final_ok {α : Type} {x : Op α} {a : α} {u : State} {rs : Multiset Record} (h : Leads t u rs)
    (hrun : x t = .ok a u) : (Action.final x t).WellFormed := by
  rw [Action.final_ok hrun]
  exact h.wellFormed

theorem Leads.final_error {α : Type} {x : Op α} {e : Failure} {u : State} {rs : Multiset Record} (h : Leads t u rs)
    (hrun : x t = .error e u) : (Action.final x t).WellFormed := by
  rw [Action.final_error hrun]
  exact h.wellFormed

theorem Breaks.final {α : Type} {x : Op α} (h : Breaks x t) : (Action.final x t).WellFormed := by
  obtain ⟨u, rs, hrun, hleads, -⟩ := h
  exact hleads.final_error hrun

theorem Request.run_wellFormed {q : Request} (ht : t.WellFormed) (hq : q.Admissible) : (q.run t).WellFormed := by
  cases q with
  | put key r =>
    rcases put_cases ht hq.2 (Record.key?_eq_some_iff.mpr hq.1) with
      ⟨reason, -, hrun⟩ | ⟨c, e, u, -, hrun, hleads⟩ | ⟨h, u, hrun, hleads⟩
    · exact (Leads.refl ht).final_error hrun
    · exact hleads.final_error hrun
    · exact hleads.final_ok hrun
  | contains key =>
    rcases contains_ok ht key with ⟨b, u, hrun, hleads, -⟩ | hbreaks
    · exact hleads.final_ok hrun
    · exact hbreaks.final
  | getRecord key =>
    rcases getRecord?_ok ht key with ⟨r?, u, hrun, hleads, -⟩ | hbreaks
    · exact hleads.final_ok hrun
    · exact hbreaks.final
  | get key =>
    rcases get?_ok ht key with ⟨r?, u, hrun, hleads, -⟩ | hbreaks
    · exact hleads.final_ok hrun
    · exact hbreaks.final
  | remove key =>
    obtain ⟨u, hrun, hleads⟩ := remove_ok ht key
    exact hleads.final_ok hrun
  | matching tm =>
    rcases matching_cases ht tm with ⟨matched, u, hrun, hleads, -⟩ | ⟨fault, r, -, -, hrun⟩ | hbreaks
    · exact hleads.final_ok hrun
    · exact (Leads.refl ht).final_error hrun
    · exact hbreaks.final
  | evictExpired =>
    rcases evictExpired_ok ht with ⟨n, u, hrun, hleads, -⟩ | hbreaks
    · exact hleads.final_ok hrun
    · exact hbreaks.final
  | destroy =>
    obtain ⟨u, hrun, hleads, -⟩ := destroy_ok ht
    exact hleads.final_ok hrun
  | setClock wall =>
    exact { table := ht.table, steady := ht.steady, sound := ht.sound, backed := ht.backed }

theorem run_wellFormed {requests : List Request} (ht : t.WellFormed) (hadm : ∀ q ∈ requests, q.Admissible) :
    (run requests t).WellFormed := by
  induction requests generalizing t with
  | nil => exact ht
  | cons q requests ih =>
    exact ih (q.run_wellFormed ht (hadm q List.mem_cons_self)) fun q' hq' => hadm q' (List.mem_cons_of_mem q hq')

/-! ### Searching in every state -/

/-- What searches rely on, in terms of what the segment itself reads: the key of a handle is the one that `keyAt`
    tells, and the home of a key is the low bits of its spread hash. -/
structure State.Searchable (t : State) : Prop where
  /-- Every handle names a live block with a payload that gives a key. -/
  keyed : ∀ i h, t.segment.slot? i = some h → (t.memory.arena.block? h).isSome ∧ ∃ k, keyAt h t = .ok k t
  /-- The keys of different slots are different. -/
  distinct : ∀ i j h h' k, t.segment.slot? i = some h → t.segment.slot? j = some h' → keyAt h t = .ok k t →
    keyAt h' t = .ok k t → i = j
  /-- Some steps lead from the home of a key round the table to its slot, and no empty slot lies on the way. -/
  reached : ∀ i h k, t.segment.slot? i = some h → keyAt h t = .ok k t →
    ∃ steps, i = (((mix k.hash).toNat &&& (t.segment.capacity - 1)) + steps) % t.segment.capacity ∧
      ∀ d < steps, (t.segment.slot?
        ((((mix k.hash).toNat &&& (t.segment.capacity - 1)) + d) % t.segment.capacity)).isSome
  /-- Every stored key is found. -/
  found : ∀ i h k, t.segment.slot? i = some h → keyAt h t = .ok k t → probe k t = .ok (.found i h) t
  /-- A key that is not stored is found missing. -/
  missed : ∀ k, (∀ i h, t.segment.slot? i = some h → keyAt h t ≠ .ok k t) → ∃ i, probe k t = .ok (.absent i) t

theorem InOrder.searchable (ho : InOrder t.memory.arena t.segment) (hm : t.memory.Legible) : t.Searchable := by
  have hread := readable_key? hm
  have hkey {i : Nat} {h : Handle} (hi : t.segment.slot? i = some h) :
      ∃ r k, t.memory.arena.record? h = some r ∧ t.memory.arena.key? h = some k ∧ keyAt h t = .ok k t := by
    obtain ⟨k, hk⟩ := ho.chained.readable hi
    obtain ⟨r, hr, -⟩ := ho.record? (mem_held.mpr ⟨i, hi⟩)
    exact ⟨r, k, hr, hk, keyAt_ok hread hk⟩
  have hkey? {i : Nat} {h : Handle} {k : Value} (hi : t.segment.slot? i = some h) (hk : keyAt h t = .ok k t) :
      t.memory.arena.key? h = some k := by
    obtain ⟨r, k', -, hk', hrun⟩ := hkey hi
    rw [hrun] at hk
    cases hk
    exact hk'
  refine ⟨fun i h hi => ?_, fun i j h h' k hi hj hk hk' => ?_, fun i h k hi hk => ?_, fun i h k hi hk => ?_,
    fun k hnew => ?_⟩
  · obtain ⟨r, k, hr, -, hrun⟩ := hkey hi
    obtain ⟨b, hb, -⟩ := Option.bind_eq_some_iff.mp hr
    exact ⟨hb ▸ rfl, k, hrun⟩
  · exact ho.chained.distinct hi hj ((hkey? hi hk).trans (hkey? hj hk').symm)
  · obtain ⟨n, hn⟩ := ho.capacity_eq_pow
    have hand : (mix k.hash).toNat &&& (t.segment.capacity - 1) = k.home t.segment.slots.size := by
      rw [capacity, hn, Nat.and_two_pow_sub_one_eq_mod, Value.home]
    rw [hand]
    exact Taken.steps (ho.chained.reached hi (hkey? hi hk)) (lt_of_occupant? hi)
  · exact probe_found hread ho.chained hi (hkey? hi hk)
  · rcases ho.probe_cases hm k with ⟨i, h, r, -, hi, hr, hk⟩ | ⟨i, hprobe, -⟩
    · exact absurd (keyAt_ok hread (by rw [Arena.key?_of_record? hr, hk])) (hnew i h hi)
    · exact ⟨i, hprobe⟩

theorem State.Intact.searchable (ht : t.Intact) : t.Searchable := ht.table.searchable ht.steady.legible

variable {capacity : Nat} {s : Segment} {memory : Memory} {counters : Counters} {notifier : Notifier} {clock : Clock}

theorem wellFormed_create (hs : create capacity = .ok s) (hsteady : memory.Steady) (hsound : memory.arena.Sound) :
    State.WellFormed ⟨⟨memory, counters, notifier, clock⟩, s⟩ := by
  obtain ⟨hcapacity, rfl⟩ := of_create hs
  refine ⟨⟨inOrder_empty hcapacity, hsteady, hsound⟩, ?_⟩
  show (memory.arena.records (held (Array.replicate capacity none))).card ≤ _
  rw [held_replicate]
  exact Nat.zero_le _

/-- Whatever is asked of a segment, with whatever limits, clock and listener, and in a memory that runs out of room
    whenever it does, its slots are as searches rely on. -/
theorem searchable_of_run (hs : create capacity = .ok s) (hsteady : memory.Steady) (hsound : memory.arena.Sound)
    (requests : List Request) (hadm : ∀ q ∈ requests, q.Admissible) :
    (run requests ⟨⟨memory, counters, notifier, clock⟩, s⟩).Searchable :=
  (run_wellFormed (wellFormed_create hs hsteady hsound) hadm).searchable

/-- A record is put, replaced by a longer one, put back by its clock and evicted. -/
theorem searchable_of_eviction :
    (run [.put (.bool true) ⟨[1, 0, 1, 1], 0, 5, .null⟩, .put (.bool true) ⟨[1, 0, 1, 1, 7], 0, 5, .null⟩, .setClock 9,
        .evictExpired] ⟨⟨.withLimit (some 64), {}, .silent "", ⟨0⟩⟩, empty 2⟩).Searchable := by
  refine searchable_of_run (show create 2 = .ok (empty 2) from rfl) ⟨rfl, rfl, rfl⟩ (Arena.sound_empty (some 64)) _ fun q hq => ?_
  simp only [List.mem_cons, List.not_mem_nil, or_false] at hq
  rcases hq with rfl | rfl | rfl | rfl
  · exact ⟨by decide, by decide⟩
  · exact ⟨by decide, by decide⟩
  · trivial
  · trivial

end RecordStore.Segment
