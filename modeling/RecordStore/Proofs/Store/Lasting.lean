import RecordStore.Proofs.Schemas
import RecordStore.Proofs.Store.SparedEntries

/-! # Lifetimes of entries

An entry that was put for a span of time is found until that time is over, to the millisecond, and not any more from
then on. A lookup that comes late takes it away for good, wherever the clock is set afterwards. -/

namespace RecordStore

namespace Lifetime

/-- When a time that begins with the stamp is over, in whole milliseconds that need not fit a word. What is to last for
    ever has no such end. -/
def deadline? (stamp : UInt64) (lifetime? : Option Duration) : Option Nat :=
  lifetime?.map fun d => stamp.toNat + d.millis

def Passed (deadline? : Option Nat) (now : UInt64) : Prop := ∃ n, deadline? = some n ∧ n ≤ now.toNat

/-- Just the lifetimes are refused whose milliseconds reach the word that stands for ever. -/
theorem ofDuration?_cases (lifetime? : Option Duration) :
    (∃ d, lifetime? = some d ∧ 4294967295 ≤ d.millis ∧ ofDuration? lifetime? = .error (.lifetimeTooLong d)) ∨
    (∀ d, lifetime? = some d → d.millis < 4294967295) ∧ ∃ ttl, ofDuration? lifetime? = .ok ttl ∧
      ∀ stamp now, ttl.isOver stamp now = true ↔ Passed (deadline? stamp lifetime?) now := by
  cases lifetime? with
  | none =>
    refine Or.inr ⟨nofun, forever, rfl, fun stamp now => iff_of_false (by simp [isOver]) ?_⟩
    rintro ⟨n, hnone, -⟩
    cases hnone
  | some d =>
    by_cases hshort : d.millis < 4294967295
    · have hword : (UInt32.ofNat d.millis).toNat = d.millis := UInt32.toNat_ofNat_of_lt (Nat.lt_succ_of_lt hshort)
      have hends : UInt32.ofNat d.millis ≠ forever := by
        intro h
        rw [← hword, h] at hshort
        exact absurd hshort (Nat.lt_irrefl _)
      refine Or.inr ⟨?_, UInt32.ofNat d.millis, if_pos hshort, fun stamp now => ?_⟩
      · rintro _ ⟨⟩
        exact hshort
      · simp [isOver, Passed, deadline?, hends, hword]
    · exact Or.inl ⟨d, rfl, Nat.le_of_not_lt hshort, if_neg hshort⟩

end Lifetime

namespace Store

open RecordStore.Action

variable {s s' : Store} {k : Value} {r : Record} {e : Entity} {payload : Bytes} {lifetime? : Option Duration}
  {ttl : Lifetime}

/-! ### Looking a key up -/

/-- The ways to look a key up. -/
inductive Lookup
  | contains
  | getRecord
  | get
  | getEntity

namespace Lookup

def ask (k : Value) : Lookup → Request
  | contains => .contains k
  | getRecord => .getRecord k
  | get => .get k
  | getEntity => .getEntity k

/-- What is answered where an entry is found that holds an entity, or none is. -/
def reply (found? : Option (Entry × Entity)) : Lookup → Response
  | contains => .flag found?.isSome
  | getRecord => .entry (found?.map (·.1))
  | get => .payload (found?.map (·.1.payload))
  | getEntity => .entity (found?.map (·.2))

end Lookup

/-- A lookup leaves no record of the key behind whose time is over, and changes no other one. -/
theorem lookup_leaves (hs : s.WellFormed) (l : Lookup) (k : Value) : (answer (l.ask k) s).2.records = s.lasting k := by
  cases l with
  | contains =>
    rw [Lookup.ask, answer, respond_snd]
    exact (course_contains hs.orderly k).leaves_lasting hs
  | getRecord =>
    rw [Lookup.ask, answer, respond_snd]
    exact (course_getRecord? hs.orderly k).leaves_lasting hs
  | get =>
    rw [Lookup.ask, answer, respond_snd]
    exact (course_get? hs.orderly k).leaves_lasting hs
  | getEntity =>
    rw [Lookup.ask, answer, respond_snd, final_getEntity?]
    exact (course_get? hs.orderly k).leaves_lasting hs

/-- Among the records is that entry under the key, which holds that entity, or there is none under it. -/
def Tells (rs : Multiset Record) (k : Value) : Option (Entry × Entity) → Prop
  | none => ∀ r ∈ rs, r.key? ≠ some k
  | some (entry, e) => ∃ r ∈ rs, r.key? = some k ∧ r.entry = entry ∧ Payload.decode entry.payload = .ok e

theorem Tells.cases {rs : Multiset Record} {r? : Option Record} {found? : Option (Entry × Entity)}
    (h : Tells rs k found?) (hr : ∀ r, r? = some r ↔ r ∈ rs ∧ r.key? = some k) :
    (r? = none ∧ found? = none) ∨
      ∃ r e, r? = some r ∧ found? = some (r.entry, e) ∧ Payload.decode r.payload = .ok e := by
  cases found? with
  | none =>
    refine Or.inl ⟨Option.eq_none_iff_forall_ne_some.mpr fun r hfound => ?_, rfl⟩
    obtain ⟨hmem, hk⟩ := (hr r).mp hfound
    exact h r hmem hk
  | some found =>
    obtain ⟨entry, e⟩ := found
    obtain ⟨r, hmem, hk, rfl, hdecode⟩ := h
    exact Or.inr ⟨r, e, (hr r).mpr ⟨hmem, hk⟩, rfl, hdecode⟩

theorem Breaks.reports {α : Type} {x : Op α} (h : Breaks x s)
    (hx : Course True (fun r => r.key? = some k) s (x s)) (reply : α → Response) :
    (respond reply x s).1 = .failed (.abort .listener) ∧ ¬ s.notifier.Calm ∧ ∃ r ∈ s.overdue, r.key? = some k := by
  refine ⟨?_, h.not_calm, ?_⟩
  · obtain ⟨s', rs, hrun, -⟩ := h
    rw [respond_error hrun]
  · by_contra hnone
    push Not at hnone
    exact hx.not_breaks hnone h

/-- A lookup answers what it leaves under the key, unless the listener breaks on the record that it evicts. -/
theorem lookup_cases {found? : Option (Entry × Entity)} (hs : s.WellFormed) (l : Lookup)
    (h : Tells (s.lasting k) k found?) :
    (answer (l.ask k) s).1 = l.reply found? ∨
      (answer (l.ask k) s).1 = .failed (.abort .listener) ∧ ¬ s.notifier.Calm ∧ ∃ r ∈ s.overdue, r.key? = some k := by
  cases l with
  | contains =>
    rcases contains_ok hs k with ⟨b, s', hrun, hleads, hb⟩ | hbreaks
    · rw [hleads.records] at hb
      rw [Lookup.ask, answer, respond_ok hrun]
      refine Or.inl (congrArg Response.flag (Bool.eq_iff_iff.mpr (hb.trans ?_)))
      cases found? with
      | none =>
        refine iff_of_false ?_ Bool.false_ne_true
        rintro ⟨r, hr, hk⟩
        exact h r hr hk
      | some found =>
        obtain ⟨r, hr, hk, -⟩ := h
        exact iff_of_true ⟨r, hr, hk⟩ rfl
    · exact Or.inr (hbreaks.reports (course_contains hs.orderly k) _)
  | getRecord =>
    rcases getRecord?_ok hs k with ⟨r?, s', hrun, hleads, hr⟩ | hbreaks
    · rw [hleads.records] at hr
      rw [Lookup.ask, answer, respond_ok hrun]
      rcases h.cases hr with ⟨rfl, rfl⟩ | ⟨r, e, rfl, rfl, -⟩
      · exact Or.inl rfl
      · exact Or.inl rfl
    · exact Or.inr (hbreaks.reports (course_getRecord? hs.orderly k) _)
  | get =>
    rcases get?_ok hs k with ⟨r?, s', hrun, hleads, hr⟩ | hbreaks
    · rw [hleads.records] at hr
      rw [Lookup.ask, answer, respond_ok hrun]
      rcases h.cases hr with ⟨rfl, rfl⟩ | ⟨r, e, rfl, rfl, -⟩
      · exact Or.inl rfl
      · exact Or.inl rfl
    · exact Or.inr (hbreaks.reports (course_get? hs.orderly k) _)
  | getEntity =>
    rcases getEntity?_ok hs k with ⟨r?, s', hleads, hr, hrun⟩ | hbreaks
    · rw [hleads.records] at hr
      rcases h.cases hr with ⟨rfl, rfl⟩ | ⟨r, e, rfl, rfl, hdecode⟩
      · rw [Lookup.ask, answer, respond_ok hrun]
        exact Or.inl rfl
      · simp only [hdecode] at hrun
        rw [Lookup.ask, answer, respond_ok hrun]
        exact Or.inl rfl
    · exact Or.inr (hbreaks.reports (course_getEntity? hs.orderly k) _)

theorem lookup_none (hs : s.WellFormed) (hnone : ∀ r ∈ s.records, r.key? ≠ some k) (l : Lookup) :
    (answer (l.ask k) s).1 = l.reply none := by
  have htells : Tells (s.lasting k) k none := fun r hr => hnone r (Multiset.mem_of_mem_filter hr)
  refine (lookup_cases hs l htells).resolve_right ?_
  rintro ⟨-, -, r, hr, hk⟩
  exact hnone r (Multiset.mem_of_mem_filter hr) hk

theorem lookup_finds (hs : s.WellFormed) (hr : r ∈ s.records) (hk : r.key? = some k)
    (hlasts : ¬ r.isOver s.clock.now) (hdecode : Payload.decode r.payload = .ok e) (l : Lookup) :
    (answer (l.ask k) s).1 = l.reply (some (r.entry, e)) := by
  have hmem : r ∈ s.lasting k := Multiset.mem_filter.mpr ⟨hr, fun hdue => hlasts hdue.1⟩
  have htells : Tells (s.lasting k) k (some (r.entry, e)) := ⟨r, hmem, hk, rfl, hdecode⟩
  refine (lookup_cases hs l htells).resolve_right ?_
  rintro ⟨-, -, r', hr', hk'⟩
  obtain ⟨hmem', hover⟩ := Multiset.mem_filter.mp hr'
  rw [eq_of_key hs hr hk hmem' hk'] at hlasts
  exact hlasts hover

theorem lasting_absent (hs : s.WellFormed) (hr : r ∈ s.records) (hk : r.key? = some k)
    (hover : r.isOver s.clock.now) : ∀ r' ∈ s.lasting k, r'.key? ≠ some k := by
  intro r' hr' hk'
  obtain ⟨hmem, hlasts⟩ := Multiset.mem_filter.mp hr'
  rw [eq_of_key hs hr hk hmem hk'] at hover
  exact hlasts ⟨hover, hk'⟩

/-- The lookup does not find an entry under the key, and neither does any later one before the key is put again,
    whatever the clock says by then. At most a listener breaks on the eviction. -/
structure Loses (s : Store) (k : Value) (l : Lookup) : Prop where
  missed : (answer (l.ask k) s).1 = l.reply none ∨
    (answer (l.ask k) s).1 = .failed (.abort .listener) ∧ ¬ s.notifier.Calm
  forGood : ∀ requests, (∀ q ∈ requests, q.Fits s.schema ∧ ¬ q.Binds s.schema k) → ∀ l' : Lookup,
    (answer (l'.ask k) (run requests (answer (l.ask k) s).2).2).1 = l'.reply none

theorem loses_of_over (hs : s.WellFormed) (hr : r ∈ s.records) (hk : r.key? = some k) (hover : r.isOver s.clock.now)
    (l : Lookup) : s.Loses k l := by
  have hgone : Tells (s.lasting k) k none := lasting_absent hs hr hk hover
  have hfits : (l.ask k).Fits s.schema := by
    cases l <;> exact trivial
  obtain ⟨clock, rs, hleads⟩ := answer_leads hs hfits
  have hschema : (answer (l.ask k) s).2.schema = s.schema := hleads.keeps.schema
  constructor
  · rcases lookup_cases hs l hgone with hmissed | ⟨hbroken, hcalm, -⟩
    · exact Or.inl hmissed
    · exact Or.inr ⟨hbroken, hcalm⟩
  · intro requests hnew l'
    rw [← lookup_leaves hs l k] at hgone
    rw [← hschema] at hnew
    obtain ⟨hrun, hnone⟩ := run_absent hleads.wellFormed hgone hnew
    exact lookup_none hrun hnone l'

/-! ### Putting for a time -/

/-- The entry under the key, with the entity that it holds, is there until its end, and not any more from then on. -/
structure Lasts (s : Store) (k : Value) (found : Entry × Entity) (deadline? : Option Nat) : Prop where
  before : ∀ requests, Spares k (Lifetime.Passed deadline?) requests s →
    ¬ Lifetime.Passed deadline? (run requests s).2.clock.now →
    ∀ l : Lookup, (answer (l.ask k) (run requests s).2).1 = l.reply (some found)
  after : ∀ requests, Spares k (Lifetime.Passed deadline?) requests s →
    Lifetime.Passed deadline? (run requests s).2.clock.now → ∀ l : Lookup, (run requests s).2.Loses k l

/-- An entity is put for the time that was asked for, or refused if that cannot be written. -/
structure Timely (s : Store) (e : Entity) (lifetime? : Option Duration) (payload : Bytes) (k : Value) : Prop where
  /-- Nothing has changed then, not even what was counted. -/
  refused : (∃ fault, putEntity e lifetime? s = .error (.error (.invalidArgument fault)) s) ↔
    ∃ d, lifetime? = some d ∧ 4294967295 ≤ d.millis
  stored : (∀ d, lifetime? = some d → d.millis < 4294967295) → ∃ ttl replaced s',
    Lifetime.ofDuration? lifetime? = .ok ttl ∧ putEntity e lifetime? s = .ok replaced s' ∧
    s'.Lasts k (⟨payload, s.clock.now, ttl⟩, e) (Lifetime.deadline? s.clock.now lifetime?)

theorem lasts_of_mem {deadline? : Option Nat} (hs : s.WellFormed) (hr : r ∈ s.records) (hk : r.key? = some k)
    (hdecode : Payload.decode r.payload = .ok e) (hends : ∀ now, r.isOver now = true ↔ Lifetime.Passed deadline? now) :
    s.Lasts k (r.entry, e) deadline? where
  before requests hspares hlasts l := by
    obtain ⟨hrun, hmem⟩ := run_spares hs hr hk (fun now => (hends now).mp) hspares
    exact lookup_finds hrun hmem hk (fun hover => hlasts ((hends _).mp hover)) hdecode l
  after requests hspares hpassed l := by
    obtain ⟨hrun, hmem⟩ := run_spares hs hr hk (fun now => (hends now).mp) hspares
    exact loses_of_over hrun hmem hk ((hends _).mpr hpassed) l

theorem putEntity_refused {fault : ArgumentFault} (hl : Lifetime.ofDuration? lifetime? = .error fault) :
    putEntity e lifetime? s = .error (.error (.invalidArgument fault)) s := by
  simp only [putEntity, hl]
  rfl

theorem putEntity_eq (hl : Lifetime.ofDuration? lifetime? = .ok ttl) (he : s.schema.encode e = .ok payload) :
    putEntity e lifetime? s = put payload ttl s := by
  simp only [putEntity, hl, Except.mapError, Action.ofExcept, pure_bind_run, get_bind, he]
  rfl

theorem timely (hs : s.WellFormed) (hunlimited : s.Unlimited) (he : s.schema.encode e = .ok payload)
    (hfits : payload.length < Record.lengthLimit) (hk : e[0]? = some k) (lifetime? : Option Duration) :
    s.Timely e lifetime? payload k := by
  rcases Lifetime.ofDuration?_cases lifetime? with ⟨d, rfl, hlong, hl⟩ | ⟨hshort, ttl, hl, hends⟩
  · exact ⟨iff_of_true ⟨_, putEntity_refused hl⟩ ⟨d, rfl, hlong⟩, fun hshort =>
      absurd (hshort d rfl) (Nat.not_lt_of_le hlong)⟩
  · obtain ⟨hschema, rfl⟩ := Schema.encode_eq_ok_iff.mp he
    have hkey := hschema.key hk
    rcases put_cases hs ttl hfits hkey with ⟨e', s', hrefuses, -⟩ | ⟨h, s', hput, hleads⟩
    · exact absurd hrefuses hunlimited.not_refuses
    · have hrun := (putEntity_eq hl he).trans hput
      have hr : ⟨e.encode, s.clock.now, ttl, h⟩ ∈ s'.records := by
        rw [hleads.records]
        exact Multiset.mem_cons_self _ _
      constructor
      · refine iff_of_false ?_ ?_
        · rintro ⟨fault, hrefused⟩
          rw [hrun] at hrefused
          cases hrefused
        · rintro ⟨d, rfl, hlong⟩
          exact absurd (hshort d rfl) (Nat.not_lt_of_le hlong)
      · exact fun _ => ⟨ttl, _, s', hl, hrun, lasts_of_mem hleads.wellFormed hr (Record.key?_eq_some_iff.mpr hkey)
          hschema.decode (hends s.clock.now)⟩

variable {schema : Schema} {config : StoreConfig} {memory : Memory} {notifier : Notifier} {clock : Clock}
  {draw : Nat → Nat} {s₀ : Store} {trials : List Trial}

/-- Whatever a store has gone through without an entry being torn, whenever it is asked and whatever its listener does:
    without limits an entity that can be written lasts for just the time that it is put for. -/
theorem timely_of_endured (hs₀ : create schema config memory notifier clock draw = .ok s₀) (hlegible : memory.Legible)
    (hsound : memory.arena.Sound) (hendures : Endures trials s₀) (hs : s = endure trials s₀)
    (hunlimited : s.Unlimited) (he : s.schema.encode e = .ok payload) (hfits : payload.length < Record.lengthLimit)
    (hk : e[0]? = some k) (lifetime? : Option Duration) : s.Timely e lifetime? payload k := by
  have horderly : s.Orderly := hs ▸ endure_orderly hendures (orderly_of_create hs₀ hlegible hsound)
  exact timely (horderly.wellFormed_of_faultless hunlimited.faultless) hunlimited he hfits hk lifetime?

/-- In place of an entry that is over another one is put, whose time ends with the last reading of the clock. It is
    found just before, and once it was missed it is not found either when the clock is set back. -/
theorem timely_at_last_reading :
    let s := endure [.ask (.put [1, 0, 1, 1] 5), .ask (.setClock 18446744073709551613)]
      (made ⟨"Entry", [⟨"id", .bool⟩]⟩ { minSegments := 1, maxSegments := 1, segmentCapacity := 2 } .empty
        (.silent "Entry") ⟨9⟩ (Placement.evenly 1 1))
    ∃ replaced s', putEntity [.bool true] (some (.ofMillis 2)) s = .ok replaced s' ∧
      (answer (.getEntity (.bool true)) (run [.setClock 18446744073709551614] s').2).1 = .entity (some [.bool true]) ∧
      let late := (run [.setClock 18446744073709551615] s').2
      (answer (.contains (.bool true)) (run [.setClock 9] (answer (.get (.bool true)) late).2).2).1 = .flag false := by
  intro s
  have hmade : create ⟨"Entry", [⟨"id", .bool⟩]⟩ { minSegments := 1, maxSegments := 1, segmentCapacity := 2 } .empty
      (.silent "Entry") ⟨9⟩ (Placement.evenly 1 1) = .ok (made _ _ _ _ _ _) := rfl
  have hendures : Endures [.ask (.put [1, 0, 1, 1] 5), .ask (.setClock 18446744073709551613)]
      (made ⟨"Entry", [⟨"id", .bool⟩]⟩ { minSegments := 1, maxSegments := 1, segmentCapacity := 2 } .empty
        (.silent "Entry") ⟨9⟩ (Placement.evenly 1 1)) := by
    have hfour : 4 < Record.lengthLimit := by decide
    have hfits : ∀ q ∈ [Request.put [1, 0, 1, 1] 5, .setClock 18446744073709551613],
        q.Fits ⟨"Entry", [⟨"id", .bool⟩]⟩ :=
      List.forall_mem_cons.mpr ⟨hfour, List.forall_mem_cons.mpr ⟨trivial, nofun⟩⟩
    exact (wellFormed_made rfl ⟨rfl, rfl, rfl⟩ (Arena.sound_empty none)).endures hfits
  have htimely := timely_of_endured hmade rfl (Arena.sound_empty none) hendures (s := s) rfl ⟨rfl, rfl, rfl, rfl⟩
    (e := [.bool true]) (k := .bool true) rfl (by decide) rfl (some (.ofMillis 2))
  obtain ⟨ttl, replaced, s', -, hput, hlasts⟩ := htimely.stored (by rintro _ ⟨⟩; decide)
  have hclock (wall : Int) (late : UInt64 → Prop) : Spares (.bool true) late [.setClock wall] s' :=
    ⟨⟨trivial, nofun, id, nofun⟩, trivial⟩
  refine ⟨replaced, s', hput, hlasts.before [.setClock 18446744073709551614] (hclock _ _) ?_ .getEntity, ?_⟩
  · rintro ⟨n, hn, hpassed⟩
    cases hn
    have hword : 18446744073709551615 ≤ 18446744073709551614 := hpassed
    exact absurd hword (by decide)
  · have hword : 18446744073709551615 ≤ 18446744073709551615 := by decide
    refine (hlasts.after [.setClock 18446744073709551615] (hclock _ _) ⟨_, rfl, hword⟩ .get).forGood [.setClock 9] ?_
      .contains
    rintro q hq
    rw [List.mem_singleton.mp hq]
    exact ⟨trivial, nofun⟩

/-! ### What failing calls can do to lifetimes -/

theorem Timely.answers (h : s.Timely e lifetime? payload k) (hshort : ∀ d, lifetime? = some d → d.millis < 4294967295) :
    ∃ ttl replaced, (answer (.putEntity e lifetime?) s).1 = .number replaced ∧
      (answer (.putEntity e lifetime?) s).2.Lasts k (⟨payload, s.clock.now, ttl⟩, e)
        (Lifetime.deadline? s.clock.now lifetime?) := by
  obtain ⟨ttl, replaced, s', -, hrun, hlasts⟩ := h.stored hshort
  rw [answer, respond_ok hrun]
  exact ⟨ttl, replaced, rfl, hlasts⟩

/-- Once an entry was torn its key cannot be put any more. Once a read has failed while an entry was removed, a key can
    get a second entry, so that the first one is found again when the second one was missed after its time. -/
theorem not_timely_of_failing_calls :
    (torn.Unlimited ∧ (answer (.putEntity [.bool true] none) torn).1 = .failed (.error (.invalidHandle ⟨1⟩)) ∧
      ¬ torn.Timely [.bool true] none [1, 0, 1, 1] (.bool true)) ∧
    (severed Lifetime.forever).Unlimited ∧
      (run [.putEntity [.bool false] (some (.ofMillis 2)), .setClock 2, .contains (.bool false), .contains (.bool false)]
        (severed Lifetime.forever)).1 = [.number 0, .done, .flag false, .flag true] ∧
      ¬ (severed Lifetime.forever).Timely [.bool false] (some (.ofMillis 2)) [1, 0, 1, 0] (.bool false) := by
  have hfails : (answer (.putEntity [.bool true] none) torn).1 = .failed (.error (.invalidHandle ⟨1⟩)) := by
    decide +kernel
  have hfound : (answer (.contains (.bool false)) (answer (.contains (.bool false)) (run [.setClock 2]
      (answer (.putEntity [.bool false] (some (.ofMillis 2))) (severed Lifetime.forever)).2).2).2).1 = .flag true := by
    decide +kernel
  refine ⟨⟨by decide +kernel, hfails, fun h => ?_⟩, by decide +kernel, by decide +kernel, fun h => ?_⟩
  · obtain ⟨ttl, replaced, hput, -⟩ := h.answers nofun
    rw [hfails] at hput
    cases hput
  · obtain ⟨ttl, replaced, -, hlasts⟩ := h.answers (by rintro _ ⟨⟩; decide)
    have hpassed : (severed Lifetime.forever).clock.now.toNat + 2 ≤ (run [.setClock 2] (answer
        (.putEntity [.bool false] (some (.ofMillis 2))) (severed Lifetime.forever)).2).2.clock.now.toNat := by
      decide +kernel
    have hlost := (hlasts.after [.setClock 2] ⟨⟨trivial, nofun, id, nofun⟩, trivial⟩ ⟨_, rfl, hpassed⟩ .contains).forGood []
      nofun .contains
    exact absurd (hfound.symm.trans hlost) (by decide)

end Store

end RecordStore
