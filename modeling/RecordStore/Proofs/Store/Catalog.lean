import RecordStore.Proofs.Store.Requests

/-! # Catalogs

A catalog is a finite map from keys to entries, with a clock. It says what a store answers without saying where
anything lies: there are no segments, no handles and no bytes but those of the payloads. -/

namespace RecordStore

namespace Entry

/-- The bytes that an entry takes, sixteen for its header. -/
def size (e : Entry) : Nat := 16 + e.payload.length

/-- Whether the time of an entry is over. -/
def isOver (e : Entry) (now : UInt64) : Bool := e.ttl.isOver e.createdAt now

end Entry

/-- Entries under their keys, no key twice. -/
structure Catalog where
  clock : Clock
  bindings : List (Value × Entry)
  distinct : (bindings.map Prod.fst).Nodup

namespace Catalog

open Store (Request Response)

/-! ### The map -/

def empty (clock : Clock) : Catalog := ⟨clock, [], List.nodup_nil⟩

/-- The entry of a key. -/
def find? (c : Catalog) (k : Value) : Option Entry := (c.bindings.find? fun b => b.1 = k).map Prod.snd

/-- The bindings that satisfy `p`. -/
def keep (c : Catalog) (p : Value × Entry → Bool) : Catalog where
  clock := c.clock
  bindings := c.bindings.filter p
  distinct := c.distinct.sublist (List.filter_sublist.map _)

/-- The map without a key. -/
def unbind (c : Catalog) (k : Value) : Catalog := c.keep fun b => b.1 ≠ k

theorem key_notMem_unbind (c : Catalog) (k : Value) : k ∉ (c.unbind k).bindings.map Prod.fst := by
  intro hk
  obtain ⟨b, hb, rfl⟩ := List.mem_map.mp hk
  simpa using (List.mem_filter.mp hb).2

/-- The map with another entry, or the first one, for a key. -/
def bind (c : Catalog) (k : Value) (e : Entry) : Catalog where
  clock := c.clock
  bindings := (k, e) :: (c.unbind k).bindings
  distinct := List.nodup_cons.mpr ⟨key_notMem_unbind c k, (c.unbind k).distinct⟩

/-- The bindings whose time is not over. -/
def unexpired (c : Catalog) : Catalog := c.keep fun b => !b.2.isOver c.clock.now

/-- The number of entries. -/
def size (c : Catalog) : Nat := c.bindings.length

/-- The bytes that all entries take. -/
def bytes (c : Catalog) : Nat := (c.bindings.map fun b => b.2.size).sum

/-! ### Answers -/

/-- A binding is seen unless its time is over, and is dropped if it is. -/
def see (c : Catalog) (k : Value) : Option Entry × Catalog :=
  match c.find? k with
  | none => (none, c)
  | some e => if e.isOver c.clock.now then (none, c.unbind k) else (some e, c)

/-- The size of the entry of a key, or 0. -/
def sizeOf (c : Catalog) (k : Value) : Nat := ((c.find? k).map Entry.size).getD 0

/-- Binds the key of a payload to it, as of now. -/
def put (c : Catalog) (payload : Bytes) (ttl : Lifetime) : Response × Catalog :=
  match Payload.key payload with
  | .error fault => (.failed (.error (.codec fault)), c)
  | .ok k => (.number (c.sizeOf k), c.bind k ⟨payload, c.clock.now, ttl⟩)

/-- The payloads that a template matches, of those whose time is not over. -/
def matched (c : Catalog) (tm : Template) : List Bytes :=
  (c.unexpired.bindings.filter fun b => tm.matches? b.2.payload = .ok true).map fun b => b.2.payload

/-- How the map answers a request, and what it becomes. -/
def answer (schema : Schema) (c : Catalog) : Request → Response × Catalog
  | .put payload ttl => c.put payload ttl
  | .putEntity e lifetime? =>
    match Lifetime.ofDuration? lifetime? with
    | .error fault => (.failed (.error (.invalidArgument fault)), c)
    | .ok ttl =>
      match schema.encode e with
      | .error fault => (.failed (.error (.codec fault)), c)
      | .ok payload => c.put payload ttl
  | .contains key => (.flag (c.see key).1.isSome, (c.see key).2)
  | .getRecord key => (.entry (c.see key).1, (c.see key).2)
  | .get key => (.payload ((c.see key).1.map Entry.payload), (c.see key).2)
  | .getEntity key =>
    match (c.see key).1 with
    | none => (.entity none, (c.see key).2)
    | some e =>
      match Payload.decode e.payload with
      | .error fault => (.failed (.error (.codec fault)), (c.see key).2)
      | .ok e => (.entity (some e), (c.see key).2)
  | .remove key => (.number (c.sizeOf key), c.unbind key)
  | .matching tm => (.payloads (c.matched tm), c.unexpired)
  | .fetch tm => (.entities ((c.matched tm).filterMap fun p => (Payload.decode p).toOption), c.unexpired)
  | .evictExpired => (.number (c.bindings.countP fun b => b.2.isOver c.clock.now), c.unexpired)
  | .destroy => (.done, empty c.clock)
  | .setClock wall => (.done, { c with clock := c.clock.set wall })

/-- How the map answers some requests, one after the other, and what it is in the end. -/
def run (schema : Schema) : List Request → Catalog → List Response × Catalog
  | [], c => ([], c)
  | q :: requests, c =>
    let (response, c) := c.answer schema q
    let (responses, c) := run schema requests c
    (response :: responses, c)

/-- Whether a request may be made: what is put has a length that can be written, and what is searched can be read. -/
def Accepts (schema : Schema) (c : Catalog) : Request → Prop
  | .matching tm => ∀ b ∈ c.unexpired.bindings, ∃ found, tm.matches? b.2.payload = .ok found
  | .fetch tm =>
    (∀ b ∈ c.unexpired.bindings, ∃ found, tm.matches? b.2.payload = .ok found) ∧
      ∀ p ∈ c.matched tm, ∃ e, Payload.decode p = .ok e
  | q => q.Fits schema

/-- Whether each of some requests may be made when its turn comes. -/
def AcceptsAll (schema : Schema) : List Request → Catalog → Prop
  | [], _ => True
  | q :: requests, c => c.Accepts schema q ∧ AcceptsAll schema requests (c.answer schema q).2

variable {c : Catalog} {k : Value} {e : Entry} {schema : Schema} {q : Request}

theorem Accepts.fits (h : c.Accepts schema q) : q.Fits schema := by
  cases q with
  | matching tm => trivial
  | fetch tm => trivial
  | _ => exact h

/-! ### Looking up -/

theorem find?_eq_some_iff : c.find? k = some e ↔ (k, e) ∈ c.bindings := by
  obtain ⟨clock, bindings, distinct⟩ := c
  simp only [find?]
  induction bindings with
  | nil => simp
  | cons b bindings ih =>
    rw [List.map_cons, List.nodup_cons] at distinct
    by_cases hb : b.1 = k
    · rw [List.find?_cons_of_pos (by simpa using hb), Option.map_some, List.mem_cons, Option.some.injEq]
      constructor
      · rintro rfl
        exact Or.inl (by rw [← hb])
      · rintro (rfl | hmem)
        · rfl
        · exact absurd (List.mem_map.mpr ⟨(k, e), hmem, rfl⟩) (hb ▸ distinct.1)
    · rw [List.find?_cons_of_neg (by simpa using hb), ih distinct.2, List.mem_cons]
      refine ⟨Or.inr, fun h => h.resolve_left ?_⟩
      rintro rfl
      exact hb rfl

theorem find?_eq_none (h : c.find? k = none) {b : Value × Entry} (hb : b ∈ c.bindings) : b.1 ≠ k := by
  rintro rfl
  rw [find?_eq_some_iff.mpr hb] at h
  cases h

theorem eq_of_mem {b : Value × Entry} (h : c.find? k = some e) (hb : b ∈ c.bindings) (hk : b.1 = k) : b.2 = e := by
  subst hk
  rw [find?_eq_some_iff.mpr hb] at h
  exact Option.some.inj h

/-- Looking for a key drops its binding if it is over, and nothing else. -/
theorem see_eq (c : Catalog) (k : Value) :
    c.see k = ((c.see k).2.find? k, c.keep fun b => ¬ (b.2.isOver c.clock.now ∧ b.1 = k)) := by
  have hkeep {p : Value × Entry → Bool} (hp : ∀ b ∈ c.bindings, p b = true) : c.keep p = c := by
    obtain ⟨clock, bindings, distinct⟩ := c
    simp only [keep, Catalog.mk.injEq, true_and]
    exact List.filter_eq_self.mpr hp
  cases hfind : c.find? k with
  | none =>
    have hsee : c.see k = (none, c) := by simp only [see, hfind]
    rw [hsee, hkeep, hfind]
    intro b hb
    simp [find?_eq_none hfind hb]
  | some e =>
    by_cases hover : e.isOver c.clock.now = true
    · have hsee : c.see k = (none, c.unbind k) := by simp only [see, hfind, if_pos hover]
      have hgone : (c.unbind k).find? k = none := by
        cases h : (c.unbind k).find? k with
        | none => rfl
        | some e' =>
          exact absurd (List.mem_map.mpr ⟨_, find?_eq_some_iff.mp h, rfl⟩) (key_notMem_unbind c k)
      have hsame : c.unbind k = c.keep fun b => ¬ (b.2.isOver c.clock.now ∧ b.1 = k) := by
        simp only [unbind, keep, Catalog.mk.injEq, true_and]
        refine List.filter_congr fun b hb => ?_
        by_cases hk : b.1 = k
        · simp [hk, eq_of_mem hfind hb hk, hover]
        · simp [hk]
      rw [hsee, hgone, hsame]
    · have hsee : c.see k = (some e, c) := by simp only [see, hfind, if_neg hover]
      rw [hsee, hkeep, hfind]
      intro b hb
      by_cases hk : b.1 = k
      · simp [hk, eq_of_mem hfind hb hk, hover]
      · simp [hk]

end Catalog

end RecordStore
