import RecordStore.Proofs.Store.Evictions
import RecordStore.Proofs.Store.Steps

/-! # What requests leave of one entry

The entry of a key comes with a put of the key. It goes with its removal, with everything else, or when a request meets
it after its time, and stays through all other requests, also those that break off. Nothing but a put brings another. -/

namespace RecordStore.Store

open RecordStore.Action

variable {α : Type} {s s' : Store} {k : Value} {r : Record} {q : Request} {requests : List Request}

namespace Request

/-- An entry of the key is to be stored. -/
def Binds (schema : Schema) (k : Value) (q : Request) : Prop :=
  ∃ payload ttl, q.stored? schema = some (payload, ttl) ∧ Payload.key payload = .ok k

/-- The entry of the key is to go, whether its time is over or not. -/
def Removes (k : Value) : Request → Prop
  | remove key => key = k
  | destroy => True
  | _ => False

/-- The entry of the key is looked at, and evicted if its time is over. -/
def Meets (k : Value) : Request → Prop
  | contains key | getRecord key | get key | getEntity key => key = k
  | matching _ | fetch _ | evictExpired => True
  | _ => False

end Request

/-! ### One course -/

section Course
variable {bad : Prop} {p : Record → Prop} [DecidablePred p] {x : Op α}

/-- A record that is not both over and of the kind is still there. -/
theorem Course.spares (h : Course bad p s (x s)) (hr : r ∈ s.records) (hkept : ¬ (r.isOver s.clock.now ∧ p r)) :
    r ∈ (final x s).records := by
  have hstays {s' : Store} {gone : List Record} (hfrees : Frees s s' gone)
      (hwithin : (gone : Multiset Record) ≤ s.overdue.filter p) : r ∈ s'.records := by
    rw [← hfrees.split] at hr
    refine (Multiset.mem_add.mp hr).resolve_right fun hgone => hkept ?_
    obtain ⟨hdue, hp⟩ := Multiset.mem_filter.mp (Multiset.mem_of_le hwithin hgone)
    exact ⟨(Multiset.mem_filter.mp hdue).2, hp⟩
  generalize hrun : x s = res at h
  cases h with
  | finishes retires told all =>
    rw [final_ok hrun]
    exact hstays retires.toFrees all.le
  | @refused s₁ gone r' retires told planned within =>
    rw [final_error hrun]
    have hsome : (gone : Multiset Record) ≤ ↑(gone ++ [r']) := by
      rw [← Multiset.coe_add]
      exact Multiset.le_add_right _ _
    have hmem : r ∈ s₁.records := hstays retires.toFrees (hsome.trans within)
    exact hmem
  | broken retires told last lost within =>
    rw [final_error hrun]
    exact hstays (retires.trans last).toFrees within
  | stopped retires told within spoilt =>
    rw [final_error hrun]
    exact hstays retires.toFrees within

/-- Where nothing is to be evicted no listener breaks. -/
theorem Course.not_breaks (h : Course bad p s (x s)) (hnone : ∀ r ∈ s.overdue, ¬ p r) : ¬ Breaks x s := by
  rintro ⟨s', rs, hrun, -, -⟩
  rw [hrun] at h
  cases h with
  | @broken _ _ gone r retires told last lost within =>
    have hmem : r ∈ s.overdue.filter p := Multiset.mem_of_le within (List.mem_append_right gone List.mem_cons_self)
    obtain ⟨hdue, hp⟩ := Multiset.mem_filter.mp hmem
    exact hnone r hdue hp

/-- A course for one key evicts the record of the key if its time is over, also if the listener breaks on it. -/
theorem Course.leaves_lasting (hs : s.WellFormed) (h : Course False (fun r => r.key? = some k) s (x s)) :
    (final x s).records = s.lasting k := by
  have hdue : s.overdue.filter (·.key? = some k) =
      s.records.filter fun r => r.isOver s.clock.now ∧ r.key? = some k := by
    rw [overdue, Multiset.filter_filter]
    exact Multiset.filter_congr fun r _ => and_comm
  have hall {s' : Store} {gone : List Record} (hfrees : Frees s s' gone)
      (hgone : (gone : Multiset Record) = s.overdue.filter (·.key? = some k)) : s'.records = s.lasting k := by
    have hsplit : s'.records + s.overdue.filter (·.key? = some k) =
        s.lasting k + s.overdue.filter (·.key? = some k) := by
      rw [← hgone, hfrees.split, hgone, hdue, add_comm, lasting, Multiset.filter_add_not]
    exact add_right_cancel hsplit
  generalize hrun : x s = res at h
  cases h with
  | finishes retires told all =>
    rw [final_ok hrun]
    exact hall retires.toFrees all
  | refused retires told planned within =>
    rw [retires.unplanned hs.steady.release, Faults.isDue, Faults.gaps, hs.steady.release] at planned
    cases planned
  | @broken s₁ _ gone r retires told last lost within =>
    rw [final_error hrun]
    -- The record is the only one with the key, so that none had gone before.
    have hmem : r ∈ s.overdue.filter (·.key? = some k) :=
      Multiset.mem_of_le within (List.mem_append_right gone List.mem_cons_self)
    obtain ⟨hover, hk⟩ := Multiset.mem_filter.mp hmem
    have hone : s.overdue.filter (·.key? = some k) ≤ {r} := by
      rw [← filter_key hs (Multiset.mem_of_mem_filter hover) hk]
      exact Multiset.filter_le_filter _ (Multiset.filter_le _ _)
    refine hall (retires.trans last).toFrees (Multiset.eq_of_le_of_card_le within ?_)
    refine (Multiset.card_le_card hone).trans ?_
    rw [Multiset.card_singleton, Multiset.coe_card, List.length_append]
    exact Nat.le_add_left 1 gone.length
  | stopped retires told within spoilt => exact spoilt.elim

end Course

/-! ### One request -/

theorem final_getEntity? (k : Value) (s : Store) : final (getEntity? k) s = final (get? k) s := by
  cases h : get? k s with
  | error e s' =>
    rw [final_error h]
    exact final_error (bind_error h)
  | ok b? s' =>
    rw [final_ok h, final, getEntity?, bind_ok h]
    cases b? with
    | none => rfl
    | some b => cases hd : Payload.decode b <;> simp only [hd] <;> rfl

/-- A lookup that decodes what it finds, whether it can or not. -/
theorem course_getEntity? (hs : s.Orderly) (k : Value) : Course True (fun r => r.key? = some k) s (getEntity? k s) := by
  refine ((course_get? hs k).bind (q := fun _ => False) fun {b? s' gone} _ retires => ?_).congr fun r _ =>
    iff_of_eq (or_false _)
  have hidle := Retires.refl (retires.orderly hs)
  cases b? with
  | none => exact .idle hidle fun _ _ => id
  | some b =>
    cases hd : Payload.decode b with
    | ok e =>
      simp only [hd]
      exact .idle hidle fun _ _ => id
    | error fault =>
      simp only [hd]
      exact .stopped hidle rfl (Multiset.zero_le _) trivial

theorem Does.spares {response : Response} (h : Does s q response s') (hr : r ∈ s.records) (hk : r.key? = some k)
    (hnew : ¬ q.Binds s.schema k) (hstays : ¬ q.Removes k) (hlasts : ¬ q.Looks) : r ∈ s'.records := by
  cases h with
  | @stores _ payload ttl k' _ _ _ wanted key admitted leads silent =>
    rw [leads.records]
    refine Multiset.mem_cons_of_mem (Multiset.mem_filter.mpr ⟨hr, fun hk' => hnew ⟨payload, ttl, wanted, ?_⟩⟩)
    rw [key, Option.some.inj (hk'.symm.trans hk)]
  | refuses puts leads silent => exact leads.records ▸ hr
  | removes leads silent =>
    rw [leads.records]
    exact Multiset.mem_filter.mpr ⟨hr, fun hk' => hstays (Option.some.inj (hk'.symm.trans hk))⟩
  | clears leads silent => exact absurd trivial hstays
  | looks looks evicts => exact absurd looks hlasts
  | sets => exact hr

/-- No request but a put of the key brings a record of the key. -/
theorem Does.absent {response : Response} (h : Does s q response s') (hnone : ∀ r ∈ s.records, r.key? ≠ some k)
    (hnew : ¬ q.Binds s.schema k) : ∀ r ∈ s'.records, r.key? ≠ some k := by
  intro r hr
  cases h with
  | @stores _ payload ttl k' h _ _ wanted key admitted leads silent =>
    rw [leads.records] at hr
    rcases Multiset.mem_cons.mp hr with rfl | hr
    · intro hk
      have hkey : Record.key? ⟨payload, s.clock.now, ttl, h⟩ = some k' := Record.key?_eq_some_iff.mpr key
      refine hnew ⟨payload, ttl, wanted, ?_⟩
      rw [key, Option.some.inj (hkey.symm.trans hk)]
    · exact hnone r (Multiset.mem_of_mem_filter hr)
  | refuses puts leads silent => exact hnone r (leads.records ▸ hr)
  | removes leads silent =>
    rw [leads.records] at hr
    exact hnone r (Multiset.mem_of_mem_filter hr)
  | clears leads silent =>
    rw [leads.records] at hr
    exact absurd hr (Multiset.notMem_zero r)
  | looks looks evicts => exact hnone r (evicts.split ▸ Multiset.mem_add.mpr (Or.inl hr))
  | sets => exact hnone r hr

/-- A request that neither replaces nor removes a record leaves it there, unless it meets the record after its time. -/
theorem answer_spares (hs : s.WellFormed) (hq : q.Fits s.schema) (hr : r ∈ s.records) (hk : r.key? = some k)
    (hnew : ¬ q.Binds s.schema k) (hstays : ¬ q.Removes k) (hmeets : q.Meets k → ¬ r.isOver s.clock.now) :
    r ∈ (answer q s).2.records := by
  have hdoes := answer_does hs hq
  have hown {key : Value} (hmeets : key = k → ¬ r.isOver s.clock.now) :
      ¬ (r.isOver s.clock.now ∧ r.key? = some key) := fun h => hmeets (Option.some.inj (h.2.symm.trans hk)) h.1
  have hany (hmeets : True → ¬ r.isOver s.clock.now) : ¬ (r.isOver s.clock.now ∧ True) := fun h => hmeets trivial h.1
  cases q with
  | contains key =>
    rw [answer, respond_snd]
    exact (@course_contains s False hs.orderly key).spares hr (hown hmeets)
  | getRecord key =>
    rw [answer, respond_snd]
    exact (@course_getRecord? s False hs.orderly key).spares hr (hown hmeets)
  | get key =>
    rw [answer, respond_snd]
    exact (@course_get? s False hs.orderly key).spares hr (hown hmeets)
  | getEntity key =>
    rw [answer, respond_snd]
    exact (course_getEntity? hs.orderly key).spares hr (hown hmeets)
  | matching tm =>
    rw [answer, respond_snd]
    exact (course_matching hs.orderly tm).spares hr (hany hmeets)
  | fetch tm =>
    rw [answer, respond_snd, final_fetch]
    exact (course_matching hs.orderly tm).spares hr (hany hmeets)
  | evictExpired =>
    rw [answer, respond_snd]
    exact (@course_evictExpired s False hs.orderly).spares hr (hany hmeets)
  | _ => exact hdoes.spares hr hk hnew hstays id

/-! ### Runs -/

/-- The request leaves the entry of the key as it is, whose time is over at some readings of the clock. -/
structure Request.Spares (s : Store) (k : Value) (late : UInt64 → Prop) (q : Request) : Prop where
  fits : q.Fits s.schema
  keeps : ¬ q.Binds s.schema k
  stays : ¬ q.Removes k
  lasts : q.Meets k → ¬ late s.clock.now

/-- Each request leaves the entry as it is where it comes. -/
def Spares (k : Value) (late : UInt64 → Prop) : List Request → Store → Prop
  | [], _ => True
  | q :: requests, s => q.Spares s k late ∧ Spares k late requests (answer q s).2

/-- The record of a key stays there as long as nothing puts or removes the key, or meets the record after its time. -/
theorem run_spares {late : UInt64 → Prop} (hs : s.WellFormed) (hr : r ∈ s.records) (hk : r.key? = some k)
    (hover : ∀ now, r.isOver now → late now) (h : Spares k late requests s) :
    (run requests s).2.WellFormed ∧ r ∈ (run requests s).2.records := by
  induction requests generalizing s with
  | nil => exact ⟨hs, hr⟩
  | cons q requests ih =>
    obtain ⟨hq, hrest⟩ := h
    obtain ⟨clock, rs, hleads⟩ := answer_leads hs hq.fits
    exact ih hleads.wellFormed
      (answer_spares hs hq.fits hr hk hq.keeps hq.stays fun hmeets hdue => hq.lasts hmeets (hover _ hdue)) hrest

/-- A key without a record has none until it is put. -/
theorem run_absent (hs : s.WellFormed) (hnone : ∀ r ∈ s.records, r.key? ≠ some k)
    (hnew : ∀ q ∈ requests, q.Fits s.schema ∧ ¬ q.Binds s.schema k) :
    (run requests s).2.WellFormed ∧ ∀ r ∈ (run requests s).2.records, r.key? ≠ some k := by
  induction requests generalizing s with
  | nil => exact ⟨hs, hnone⟩
  | cons q requests ih =>
    obtain ⟨hfits, hkeeps⟩ := hnew q List.mem_cons_self
    obtain ⟨clock, rs, hleads⟩ := answer_leads hs hfits
    have hschema : (answer q s).2.schema = s.schema := hleads.keeps.schema
    have hrest : ∀ q' ∈ requests, q'.Fits (answer q s).2.schema ∧ ¬ q'.Binds (answer q s).2.schema k := by
      rw [hschema]
      exact fun q' hq' => hnew q' (List.mem_cons_of_mem q hq')
    exact ih hleads.wellFormed ((answer_does hs hfits).absent hnone hkeeps) hrest

end RecordStore.Store
