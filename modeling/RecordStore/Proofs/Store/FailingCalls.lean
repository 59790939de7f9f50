import RecordStore.Proofs.Segment.FailingCalls
import RecordStore.Proofs.Store.Lifting
import RecordStore.Proofs.Store.Tearing

/-! # Requests while calls fail

Between requests a plan may be made by which the calls for room, the writes and the releases fail. As long as no entry
is torn, every request leaves the store in order, and what it holds counted. -/

namespace RecordStore.Store

open RecordStore.Action
open Segment (Sustains)

variable {α : Type} {s s' : Store} {k : Value} {r : Record} {i : Nat} {g : Segment} {payload : Bytes} {ttl : Lifetime}

/-- Well formed but for the plan of faults, by which any call may fail but reads. -/
structure Orderly (s : Store) : Prop where
  legible : s.memory.Legible
  wellFormed : (s.withFaults .never).WellFormed

theorem WellFormed.orderly (hs : s.WellFormed) : s.Orderly :=
  ⟨hs.steady.legible, hs.served, ⟨rfl, rfl, rfl⟩, hs.sound, hs.inOrder, hs.apart, hs.routed, hs.items, hs.bytes⟩

theorem orderly_of_create {schema : Schema} {config : StoreConfig} {memory : Memory} {notifier : Notifier}
    {clock : Clock} {draw : Nat → Nat} (hs : create schema config memory notifier clock draw = .ok s) (hlegible : memory.Legible)
    (hsound : memory.arena.Sound) : s.Orderly := by
  obtain ⟨hvalid, rfl⟩ := of_create hs
  have hwell : (made schema config { memory with faults := .never } notifier clock draw).WellFormed :=
    wellFormed_made hvalid ⟨rfl, rfl, rfl⟩ hsound
  exact ⟨hlegible, hwell⟩

theorem Orderly.wellFormed_of_steady (hs : s.Orderly) (hsteady : s.memory.Steady) : s.WellFormed :=
  let h := hs.wellFormed
  ⟨h.served, hsteady, h.sound, h.inOrder, h.apart, h.routed, h.items, h.bytes⟩

theorem Orderly.wellFormed_of_faultless (hs : s.Orderly) (hfaults : s.memory.faults = .never) : s.WellFormed :=
  hs.wellFormed_of_steady (by rw [Memory.Steady, hfaults]; exact ⟨rfl, rfl, rfl⟩)

namespace Orderly

theorem part (hs : s.Orderly) (hi : s.segment? i = some g) : (s.part g).Orderly :=
  ⟨hs.legible, part_wellFormed hs.wellFormed hi⟩

theorem exists_route (hs : s.Orderly) (k : Value) :
    ∃ i g, Placement.route? s.slots k = some i ∧ s.segment? i = some g := Store.exists_route hs.wellFormed k

theorem withFaults {f : Faults} (hs : s.Orderly) (hf : f.read = []) : (s.withFaults f).Orderly := ⟨hf, hs.wellFormed⟩

theorem tally (hs : s.Orderly) (gets puts removes : Nat) : (s.tally gets puts removes).Orderly :=
  ⟨hs.legible, (leads_tally hs.wellFormed gets puts removes).wellFormed⟩

theorem setClock (hs : s.Orderly) (clock : Clock) : Orderly { s with clock } :=
  ⟨hs.legible, hs.wellFormed.setClock clock⟩

/-- What sustains the records of one segment keeps the store in order. -/
theorem update {u : Segment.State} (hs : s.Orderly) (hi : s.segment? i = some g)
    (hu : Sustains (s.place? · = some i) (s.part g) u) : (s.update i u).Orderly := by
  obtain ⟨hlegible, rs, halters, hplace⟩ := hu (hs.part hi) fun r hr =>
    place?_of_mem_part (s := s.withFaults .never) hs.wellFormed hi hr
  exact ⟨hlegible, wellFormed_update hs.wellFormed hi halters hplace⟩

end Orderly

/-- Keeps a store in order. -/
def Stays (s s' : Store) : Prop := s.Orderly → s'.Orderly

instance : IsPreorder Store Stays where
  refl _ := id
  trans _ _ _ h₁ h₂ := h₂ ∘ h₁

theorem stays_onSegment {x : Segment.Op α} (hx : ∀ {P}, Moves (Sustains P) x) (i : Nat) : Moves Stays (onSegment i x) := by
  intro s
  cases hi : s.segment? i with
  | none =>
    rw [final_error (onSegment_none x hi)]
    exact refl s
  | some g =>
    rw [final_onSegment x hi]
    exact fun hs => hs.update hi (hx _)

/-- All requests but puts keep a store in order. -/
theorem bears_stays : Bears Stays where
  tally _ gets puts removes hs := hs.tally gets puts removes
  clock _ clock hs := hs.setClock clock
  contains k := stays_onSegment (Segment.moves_contains k)
  getRecord? k := stays_onSegment (Segment.moves_getRecord? k)
  get? k := stays_onSegment (Segment.moves_get? k)
  remove k := stays_onSegment (Segment.moves_remove k)
  matching tm := stays_onSegment (Segment.moves_matching tm)
  evictExpired := stays_onSegment Segment.moves_evictExpired
  destroy := stays_onSegment Segment.moves_destroy

/-! ### Putting -/

/-- A put fails over a stored entry although the counters and the memory have granted it the room: the entry is torn. -/
def Tears (s : Store) (payload : Bytes) (ttl : Lifetime) : Prop :=
  let r := Record.fresh payload ttl s.clock.now
  (∃ k, Payload.key payload = .ok k ∧ ∃ r₀ ∈ s.records, r₀.key? = some k ∧
    (∃ c, s.counters.reserveReplace r₀.size r.size = .ok c) ∧
    ∃ h m, Memory.reallocate r₀.handle r.size s.memory = .ok h m) ∧
  ∃ e s', put payload ttl s = .error (.error e) s'

/-- A segment tears a record just if that is what the store does. -/
theorem tears_of_part (hs : s.Orderly) (hk : Payload.key payload = .ok k)
    (hroute : Placement.route? s.slots k = some i) (hi : s.segment? i = some g)
    (hsize : Record.sizeFor payload.length ≤ Block.addressable)
    (htears : ((s.tally s.gets (s.puts + 1) s.removes).part g).Tears k (Record.fresh payload ttl s.clock.now)) :
    s.Tears payload ttl := by
  obtain ⟨⟨r₀, hr₀, hk₀, hgranted⟩, e, u, hrun⟩ := htears
  refine ⟨⟨k, hk, r₀, mem_records.mpr ⟨i, g, hi, hr₀⟩, hk₀, ?_, ?_⟩, e, _,
    (put_eq s ttl hk hroute).trans (onSegment_error hi hrun)⟩
  · cases hres : s.counters.reserveReplace r₀.size (Record.fresh payload ttl s.clock.now).size with
    | ok c => exact ⟨c, rfl⟩
    | error reason => exact absurd (Or.inl ⟨reason, hres⟩) hgranted
  · obtain ⟨b, hb, -⟩ := ((hs.part hi).wellFormed.table.holds_of_mem hr₀).block
    rcases Memory.reallocate_cases (m := s.memory) (Record.fresh payload ttl s.clock.now).size hb
      with ⟨e', -, he⟩ | ⟨h, -, a, hok, -⟩ | ⟨-, -, hlong, -⟩
    · exact absurd (Or.inr ⟨e', _, he⟩) hgranted
    · exact ⟨h, _, hok⟩
    · exact absurd hsize (Nat.not_le_of_lt hlong)

theorem stays_put (hsize : Record.sizeFor payload.length ≤ Block.addressable) (hspared : ¬ s.Tears payload ttl) :
    Stays s (final (put payload ttl) s) := by
  intro hs
  have hcount := hs.tally s.gets (s.puts + 1) s.removes
  rcases put_runs s payload ttl with ⟨e, hrun⟩ | ⟨k, i, g, hk, hroute, hi, hrun⟩
  · rw [final_error hrun]
    exact hcount
  · have hkey {h : Handle} : Record.key? ⟨payload, s.clock.now, ttl, h⟩ = some k := Record.key?_eq_some_iff.mpr hk
    rw [final, hrun]
    show (final (onSegment i _) _).Orderly
    rw [final_onSegment _ (show (s.tally s.gets (s.puts + 1) s.removes).segment? i = some g from hi)]
    refine hcount.update hi (Segment.put_sustains hsize (hkey (h := .null)) ?_ fun h => ?_)
    · exact fun htears => hspared (tears_of_part hs hk hroute hi hsize htears)
    · exact (place?_of_key (hkey (h := h))).trans hroute

/-! ### Trials -/

/-- What a store may go through: a request, or a new plan of faults. -/
inductive Trial
  | ask (q : Request)
  | plan (f : Faults)

namespace Trial

def run : Trial → Store → Store
  | ask q, s => (answer q s).2
  | plan f, s => s.withFaults f

/-- Nothing is torn, nothing is put that cannot be addressed, and blocks can be read. -/
def Admissible (s : Store) : Trial → Prop
  | ask q => ∀ payload ttl, q.Offers s.schema payload ttl →
      Record.sizeFor payload.length ≤ Block.addressable ∧ ¬ s.Tears payload ttl
  | plan f => f.read = []

theorem run_orderly {x : Trial} (hx : x.Admissible s) : Stays s (x.run s) := by
  cases x with
  | plan f => exact fun hs => hs.withFaults hx
  | ask q =>
    refine bears_stays.answer fun payload ttl hoffers => ?_
    obtain ⟨hsize, hspared⟩ := hx payload ttl hoffers
    exact stays_put hsize hspared

end Trial

/-- Each trial is admissible where it comes. -/
def Endures : List Trial → Store → Prop
  | [], _ => True
  | x :: trials, s => x.Admissible s ∧ Endures trials (x.run s)

/-- The store after some trials, one after the other. -/
def endure (trials : List Trial) (s : Store) : Store := trials.foldl (fun s x => x.run s) s

theorem endure_orderly {trials : List Trial} (h : Endures trials s) : Stays s (endure trials s) := by
  induction trials generalizing s with
  | nil => exact id
  | cons x trials ih => exact fun hs => ih h.2 (x.run_orderly h.1 hs)

/-! ### Requests that endure -/

/-- Where only calls for room are made to fail, what is not too long tears nothing. -/
theorem WellFormed.not_tears (hs : s.WellFormed) (hfits : payload.length < Record.lengthLimit) :
    ¬ s.Tears payload ttl := by
  rintro ⟨⟨k, hk, r₀, hr₀, hk₀, ⟨c, hc⟩, h, m, hm⟩, e, s', hfail⟩
  obtain ⟨-, -, houtcome⟩ := put_over_error (f := s.memory.faults) hs hs.steady.read hr₀ hk₀ hk hfail
  rcases houtcome with ⟨⟨reason, hreason⟩ | ⟨e, m', hmemory⟩, -⟩ | ⟨-, b, n, -, hstops, -⟩
  · rw [hc] at hreason
    cases hreason
  · rw [show (s.withFaults s.memory.faults).memory = s.memory from rfl, hm] at hmemory
    cases hmemory
  · rcases hstops with ⟨hlong, -⟩ | ⟨-, -, hplan⟩
    · exact absurd hfits (Nat.not_lt_of_le hlong)
    · rw [hs.steady.write] at hplan
      cases hplan

theorem Request.fits_of_offers {schema : Schema} {q : Request} (hfits : q.Fits schema)
    (hoffers : q.Offers schema payload ttl) : payload.length < Record.lengthLimit := by
  cases q with
  | put payload' ttl' =>
    obtain ⟨rfl, -⟩ := hoffers
    exact hfits
  | putEntity e lifetime? => exact hfits payload hoffers.1
  | _ => exact hoffers.elim

/-- Where only calls for room are made to fail, and nothing too long is put, every request is admissible. -/
theorem WellFormed.endures {requests : List Request} (hs : s.WellFormed) (hfits : ∀ q ∈ requests, q.Fits s.schema) :
    Endures (requests.map .ask) s := by
  induction requests generalizing s with
  | nil => trivial
  | cons q requests ih =>
    obtain ⟨clock, rs, hleads⟩ := answer_leads hs (hfits q List.mem_cons_self)
    have hschema : (answer q s).2.schema = s.schema := hleads.keeps.schema
    refine ⟨fun payload ttl hoffers => ?_, ih hleads.wellFormed fun q' hq' => ?_⟩
    · have hshort := Request.fits_of_offers (hfits q List.mem_cons_self) hoffers
      exact ⟨Record.size_le_addressable (r := Record.fresh payload ttl s.clock.now) hshort, hs.not_tears hshort⟩
    · exact hschema.symm ▸ hfits q' (List.mem_cons_of_mem q hq')

/-! ### What failing calls can do

Where a call fails in the middle of a removal or of an overwrite, entries can be cut off or torn. The states that show
it are irreducible, since they are evaluated as a whole only. -/

/-- A store with one segment of four slots. The first one is the home of `true` and of `false`. -/
def fourSlots : Store :=
  made ⟨"Entry", [⟨"id", .bool⟩]⟩ { minSegments := 1, maxSegments := 1, segmentCapacity := 4 } .empty (.silent "Entry")
    ⟨0⟩ (Placement.evenly 1 1)

/-- While the first of two entries is removed the key of the other one cannot be read. So that one stays where it is,
    cut off from its home. -/
@[irreducible] def severed (ttl : Lifetime) : Store :=
  endure [.ask (.put [1, 0, 1, 1] Lifetime.forever), .ask (.put [1, 0, 1, 0] ttl), .plan (.single .read 4),
    .ask (.remove (.bool true))] fourSlots

/-- A longer payload moves the block of the only entry, and then the first write into the new one fails. The entry is
    torn: its slot names a block that is not there any more. -/
@[irreducible] def torn : Store :=
  endure [.ask (.put [1, 0, 1, 1] Lifetime.forever), .plan (.single .write 0),
    .ask (.put ([1, 0, 1, 1] ++ List.replicate 13 0) Lifetime.forever)] fourSlots

end RecordStore.Store
