import RecordStore.Proofs.Store.AllSegments

/-! # Requests to a store

Whatever is asked of a store, answered or failed, the store is in order afterwards, and what it keeps between requests
it keeps: its schema, its limits and its segments. Only the clock may be set in between. -/

namespace RecordStore

/-- What a record says, wherever it lies. -/
structure Entry where
  payload : Bytes
  createdAt : UInt64
  ttl : Lifetime
  deriving DecidableEq

/-- The entry that a record holds. -/
def Record.entry (r : Record) : Entry := ⟨r.payload, r.createdAt, r.ttl⟩

namespace Store

/-- What may be asked of a store. The clock may be set to any time in between. -/
inductive Request
  | put (payload : Bytes) (ttl : Lifetime)
  | putEntity (e : Entity) (lifetime? : Option Duration)
  | contains (key : Value)
  | getRecord (key : Value)
  | get (key : Value)
  | getEntity (key : Value)
  | remove (key : Value)
  | matching (tm : Template)
  | fetch (tm : Template)
  | evictExpired
  | destroy
  | setClock (wall : Int)

/-- How a request is answered. What comes in the order of the slots is told without that order. -/
inductive Response
  | done
  | flag (b : Bool)
  | number (n : Nat)
  | entry (e? : Option Entry)
  | payload (b? : Option Bytes)
  | entity (e? : Option Entity)
  | payloads (bs : Multiset Bytes)
  | entities (es : Multiset Entity)
  | failed (e : Failure)
  deriving DecidableEq

/-- Runs an operation and tells its answer or failure. -/
def respond {α : Type} (reply : α → Response) (x : Op α) (s : Store) : Response × Store :=
  match x s with
  | .ok a s' => (reply a, s')
  | .error e s' => (.failed e, s')

/-- The answer to a request, and the store that it leaves. -/
def answer : Request → Store → Response × Store
  | .put payload ttl => respond .number (put payload ttl)
  | .putEntity e lifetime? => respond .number (putEntity e lifetime?)
  | .contains key => respond .flag (contains key)
  | .getRecord key => respond (fun r? => .entry (r?.map Record.entry)) (getRecord? key)
  | .get key => respond .payload (get? key)
  | .getEntity key => respond .entity (getEntity? key)
  | .remove key => respond .number (remove key)
  | .matching tm => respond (fun bs : List Bytes => .payloads bs) (matching tm)
  | .fetch tm => respond (fun es : List Entity => .entities es) (fetch tm)
  | .evictExpired => respond .number evictExpired
  | .destroy => respond (fun _ => .done) destroy
  | .setClock wall => fun s => (.done, { s with clock := s.clock.set wall })

/-- The answers to some requests, one after the other, and the store that is left in the end. -/
def run : List Request → Store → List Response × Store
  | [], s => ([], s)
  | q :: requests, s =>
    let (response, s) := answer q s
    let (responses, s) := run requests s
    (response :: responses, s)

/-- What is to be put has a length that can be written. -/
def Request.Fits (schema : Schema) : Request → Prop
  | .put payload _ => payload.length < Record.lengthLimit
  | .putEntity e _ => ∀ payload, schema.encode e = .ok payload → payload.length < Record.lengthLimit
  | _ => True

variable {s s' : Store} {k : Value} {rs : Multiset Record}

section Respond
variable {α : Type} {reply : α → Response} {x : Op α} {a : α} {e : Failure}

theorem respond_ok (h : x s = .ok a s') : respond reply x s = (reply a, s') := by
  simp only [respond, h]

theorem respond_error (h : x s = .error e s') : respond reply x s = (.failed e, s') := by
  simp only [respond, h]

theorem respond_snd (reply : α → Response) (x : Op α) (s : Store) : (respond reply x s).2 = Action.final x s := by
  cases h : x s with
  | ok a s' => rw [respond_ok h, Action.final_ok h]
  | error e s' => rw [respond_error h, Action.final_error h]

end Respond

/-! ### What is left after an operation -/

section Final
variable {α : Type} {x : Op α} {a : α} {e : Failure}

theorem Leads.final_ok (h : Leads s s' rs) (hrun : x s = .ok a s') : ∃ rs, Leads s (Action.final x s) rs :=
  ⟨rs, by rw [Action.final_ok hrun]; exact h⟩

theorem Leads.final_error (h : Leads s s' rs) (hrun : x s = .error e s') : ∃ rs, Leads s (Action.final x s) rs :=
  ⟨rs, by rw [Action.final_error hrun]; exact h⟩

theorem Breaks.final (h : Breaks x s) : ∃ rs, Leads s (Action.final x s) rs := by
  obtain ⟨s', rs, hrun, hleads, -⟩ := h
  exact hleads.final_error hrun

end Final

theorem put_leads {payload : Bytes} (hs : s.WellFormed) (ttl : Lifetime)
    (hfits : payload.length < Record.lengthLimit) : ∃ rs, Leads s (Action.final (put payload ttl) s) rs := by
  cases hk : Payload.key payload with
  | error fault =>
    obtain ⟨s', hrun, hleads⟩ := put_of_no_key hs ttl hk
    exact hleads.final_error hrun
  | ok k =>
    rcases put_cases hs ttl hfits hk with ⟨e, s', -, hrun, hleads⟩ | ⟨h, s', hrun, hleads⟩
    · exact hleads.final_error hrun
    · exact hleads.final_ok hrun

/-- An entity is put as the payload that its schema gives. -/
theorem putEntity_cases (s : Store) (e : Entity) (lifetime? : Option Duration) :
    (∃ fault, Lifetime.ofDuration? lifetime? = .error fault ∧
      putEntity e lifetime? s = .error (.error (.invalidArgument fault)) s) ∨
    (∃ ttl fault, Lifetime.ofDuration? lifetime? = .ok ttl ∧ s.schema.encode e = .error fault ∧
      putEntity e lifetime? s = .error (.error (.codec fault)) s) ∨
    ∃ ttl payload, Lifetime.ofDuration? lifetime? = .ok ttl ∧ s.schema.encode e = .ok payload ∧
      putEntity e lifetime? s = put payload ttl s := by
  cases hl : Lifetime.ofDuration? lifetime? with
  | error fault => exact Or.inl ⟨fault, rfl, by simp only [putEntity, hl]; rfl⟩
  | ok ttl =>
    cases he : s.schema.encode e with
    | error fault =>
      refine Or.inr (Or.inl ⟨ttl, fault, rfl, rfl, ?_⟩)
      simp only [putEntity, hl, Except.mapError, Action.ofExcept, Action.pure_bind_run, Action.get_bind, he]
      rfl
    | ok payload =>
      refine Or.inr (Or.inr ⟨ttl, payload, rfl, rfl, ?_⟩)
      simp only [putEntity, hl, Except.mapError, Action.ofExcept, Action.pure_bind_run, Action.get_bind, he]
      rfl

theorem matching_leads (hs : s.WellFormed) (tm : Template) : ∃ rs, Leads s (Action.final (matching tm) s) rs := by
  rcases matching_cases hs tm with ⟨matched, s', hrun, hleads, -⟩ | ⟨fault, s', rs, r, -, -, hrun, hleads⟩ | hbreaks
  · exact hleads.final_ok hrun
  · exact hleads.final_error hrun
  · exact hbreaks.final

theorem fetch_ok {tm : Template} {matched : List Bytes} (h : matching tm s = .ok matched s') :
    fetch tm s = Action.ofCodec (matched.mapM Payload.decode) s' := Action.bind_ok h

theorem final_fetch (tm : Template) (s : Store) : Action.final (fetch tm) s = Action.final (matching tm) s := by
  cases h : matching tm s with
  | ok matched s' =>
    rw [Action.final_ok h, Action.final, fetch_ok h]
    cases matched.mapM Payload.decode <;> rfl
  | error e s' =>
    rw [Action.final_error h]
    exact Action.final_error (Action.bind_error h)

/-! ### Every request -/

theorem WellFormed.setClock (hs : s.WellFormed) (clock : Clock) : WellFormed { s with clock } :=
  ⟨hs.served, hs.steady, hs.sound, hs.inOrder, hs.apart, hs.routed, hs.items, hs.bytes⟩

theorem answer_leads {q : Request} (hs : s.WellFormed) (hq : q.Fits s.schema) :
    ∃ clock rs, Leads { s with clock } (answer q s).2 rs := by
  cases q with
  | setClock wall =>
    exact ⟨s.clock.set wall, s.records, Leads.refl (hs.setClock _)⟩
  | put payload ttl =>
    refine ⟨s.clock, ?_⟩
    rw [answer, respond_snd]
    exact put_leads hs ttl hq
  | putEntity e lifetime? =>
    refine ⟨s.clock, ?_⟩
    rw [answer, respond_snd]
    rcases putEntity_cases s e lifetime? with ⟨fault, -, hrun⟩ | ⟨ttl, fault, -, -, hrun⟩ | ⟨ttl, payload, -, he, hrun⟩
    · exact (Leads.refl hs).final_error hrun
    · exact (Leads.refl hs).final_error hrun
    · have hput := put_leads hs ttl (hq payload he)
      unfold Action.final at hput ⊢
      rw [hrun]
      exact hput
  | contains key =>
    refine ⟨s.clock, ?_⟩
    rw [answer, respond_snd]
    rcases contains_ok hs key with ⟨b, s', hrun, hleads, -⟩ | hbreaks
    · exact hleads.final_ok hrun
    · exact hbreaks.final
  | getRecord key =>
    refine ⟨s.clock, ?_⟩
    rw [answer, respond_snd]
    rcases getRecord?_ok hs key with ⟨r?, s', hrun, hleads, -⟩ | hbreaks
    · exact hleads.final_ok hrun
    · exact hbreaks.final
  | get key =>
    refine ⟨s.clock, ?_⟩
    rw [answer, respond_snd]
    rcases get?_ok hs key with ⟨r?, s', hrun, hleads, -⟩ | hbreaks
    · exact hleads.final_ok hrun
    · exact hbreaks.final
  | getEntity key =>
    refine ⟨s.clock, ?_⟩
    rw [answer, respond_snd]
    rcases getEntity?_ok hs key with ⟨r?, s', hleads, -, hrun⟩ | hbreaks
    · cases r? with
      | none => exact hleads.final_ok hrun
      | some r =>
        cases hd : Payload.decode r.payload with
        | ok e =>
          simp only [hd] at hrun
          exact hleads.final_ok hrun
        | error fault =>
          simp only [hd] at hrun
          exact hleads.final_error hrun
    · exact hbreaks.final
  | remove key =>
    refine ⟨s.clock, ?_⟩
    rw [answer, respond_snd]
    obtain ⟨s', hrun, hleads⟩ := remove_ok hs key
    exact hleads.final_ok hrun
  | matching tm =>
    refine ⟨s.clock, ?_⟩
    rw [answer, respond_snd]
    exact matching_leads hs tm
  | fetch tm =>
    refine ⟨s.clock, ?_⟩
    rw [answer, respond_snd, final_fetch]
    exact matching_leads hs tm
  | evictExpired =>
    refine ⟨s.clock, ?_⟩
    rw [answer, respond_snd]
    rcases evictExpired_ok hs with ⟨n, s', hrun, hleads, -⟩ | hbreaks
    · exact hleads.final_ok hrun
    · exact hbreaks.final
  | destroy =>
    refine ⟨s.clock, ?_⟩
    rw [answer, respond_snd]
    obtain ⟨s', hrun, hleads⟩ := destroy_ok hs
    exact hleads.final_ok hrun

/-- After any requests the store is in order, and every block of it is held if every block was. -/
theorem run_wellFormed {requests : List Request} (hs : s.WellFormed) (hfits : ∀ q ∈ requests, q.Fits s.schema) :
    (run requests s).2.WellFormed ∧ (s.Owns → (run requests s).2.Owns) := by
  induction requests generalizing s with
  | nil => exact ⟨hs, id⟩
  | cons q requests ih =>
    obtain ⟨clock, rs, hleads⟩ := answer_leads hs (hfits q List.mem_cons_self)
    have hschema : (answer q s).2.schema = s.schema := hleads.keeps.schema
    obtain ⟨hrest, howns⟩ := ih hleads.wellFormed fun q' hq' => by
      rw [hschema]
      exact hfits q' (List.mem_cons_of_mem q hq')
    exact ⟨hrest, fun h => howns (hleads.keeps.owns h)⟩

end Store

end RecordStore
