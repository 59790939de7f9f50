import RecordStore.Proofs.Keys
import RecordStore.Proofs.Store.FailingCalls
import RecordStore.Proofs.Store.LossByEviction
import RecordStore.Proofs.Store.Mirroring
import RecordStore.Proofs.Templates

/-! # Searches by example

While the entries that are not over can be decoded, a search finds just those of them that hold what was asked for,
in whichever segments they lie, and evicts just those that are over. -/

namespace RecordStore

/-- The payload holds an entity with what was asked for. -/
def Template.meets (calls : List (Nat × Value)) (p : Bytes) : Bool :=
  match Payload.decode p with
  | .ok e => Wants calls e
  | .error _ => false

namespace Store

variable {s s' : Store} {tm : Template}

/-- The records whose time is over. -/
def overdue (s : Store) : Multiset Record := s.records.filter fun r => r.isOver s.clock.now

/-- What is not over can be decoded. -/
def Decodes (s : Store) : Prop := ∀ r ∈ s.unexpired, ∃ e, Payload.decode r.payload = .ok e

/-- A search finds some records, each of them once, and all that are over are evicted. It may break off on a
    listener, but does not fail otherwise. -/
structure Finds (s : Store) (tm : Template) (rs : Multiset Record) : Prop where
  matching : (∃ matched s', matching tm s = .ok matched s' ∧ (matched : Multiset Bytes) = rs.map (·.payload) ∧
    Evicts s s' s.overdue) ∨ Breaks (matching tm) s
  fetch : (∃ es s', fetch tm s = .ok es s' ∧
    (es : Multiset Entity).map Except.ok = rs.map (fun r => Payload.decode r.payload) ∧
    Evicts s s' s.overdue) ∨ Breaks (fetch tm) s

theorem Evicts.overdue {gone : Multiset Record} (h : Evicts s s' gone) (hrest : s'.records = s.unexpired) :
    Evicts s s' s.overdue := by
  have hall : s.unexpired + s.overdue = s.records := by
    rw [add_comm]
    exact Multiset.filter_add_not _ _
  have hgone : gone = s.overdue := by
    have hsplit := h.split
    rw [hrest, ← hall] at hsplit
    exact add_left_cancel hsplit
  exact hgone ▸ h

theorem map_mapM {payloads : List Bytes} {es : List Entity} (h : payloads.mapM Payload.decode = .ok es) :
    es.map Except.ok = payloads.map Payload.decode := by
  induction payloads generalizing es with
  | nil =>
    cases h
    rfl
  | cons p payloads ih =>
    rw [List.mapM_cons] at h
    cases hp : Payload.decode p with
    | error fault =>
      rw [hp] at h
      cases h
    | ok e =>
      cases hrest : payloads.mapM Payload.decode with
      | error fault =>
        rw [hp, hrest] at h
        cases h
      | ok rest =>
        rw [hp, hrest] at h
        cases h
        rw [List.map_cons, List.map_cons, hp, ih hrest]

/-- A search for what the records of a kind hold, and no other entity does, finds these. -/
theorem search_finds {q : Record → Prop} [DecidablePred q] (hs : s.WellFormed) (hdecodes : s.Decodes)
    (hq : ∀ r ∈ s.unexpired, ∀ e, Payload.decode r.payload = .ok e →
      (q r ↔ tm.width ≤ e.length ∧ Template.Agree tm.fields e)) : s.Finds tm (s.unexpired.filter q) := by
  rcases matching_cases hs tm with
    ⟨matched, s', hrun, hleads, hmatched, -⟩ | ⟨fault, s', rs, r, hr, hfault, -⟩ | hbreaks
  · have hkind : s.unexpired.filter (Segment.matchedBy tm ·) = s.unexpired.filter q := by
      refine Multiset.filter_congr fun r hr => ?_
      obtain ⟨e, he⟩ := hdecodes r hr
      obtain ⟨found, hfound, hiff⟩ := Template.matches?_of_decode (t := tm) he
      rw [matchedBy_iff, hfound, hq r hr e he, ← hiff]
      simp
    rw [hkind] at hmatched
    obtain ⟨gone, hgone⟩ := (sheds_matching tm).ok hrun hs
    have hevicts := hgone.overdue hleads.records
    refine ⟨Or.inl ⟨matched, s', hrun, hmatched, hevicts⟩, Or.inl ?_⟩
    have hdecode := mapM_decode fun p hp => by
      obtain ⟨r, hr, rfl⟩ := Multiset.mem_map.mp (hmatched ▸ Multiset.mem_coe.mpr hp)
      exact hdecodes r (Multiset.mem_of_mem_filter hr)
    refine ⟨_, s', (fetch_ok hrun).trans (by rw [hdecode, Action.ofCodec_ok]), ?_, hevicts⟩
    rw [Multiset.map_coe, map_mapM hdecode, ← Multiset.map_coe, hmatched, Multiset.map_map]
    rfl
  · obtain ⟨e, he⟩ := hdecodes r hr
    obtain ⟨found, hfound, -⟩ := Template.matches?_of_decode (t := tm) he
    rw [hfault] at hfound
    cases hfound
  · exact ⟨Or.inr hbreaks, Or.inr (hbreaks.of_leads (Leads.refl hs) fun e s'' h => Action.bind_error h)⟩

/-- Searches find what they are to find. -/
structure Searches (s : Store) : Prop where
  /-- Whatever is asked for, in whatever order. -/
  byExample : ∀ calls, s.Finds (.asking calls) (s.unexpired.filter fun r => Template.meets calls r.payload)
  all : s.Finds .any s.unexpired
  /-- A key is held by one entry at most. -/
  byKey : ∀ k r, r ∈ s.unexpired → r.key? = some k → s.Finds (.ofKey k) {r}
  noKey : ∀ k, (∀ r ∈ s.unexpired, r.key? ≠ some k) → s.Finds (.ofKey k) 0

theorem searches (hs : s.WellFormed) (hdecodes : s.Decodes) : s.Searches := by
  have hkey (k : Value) : s.Finds (.ofKey k) (s.unexpired.filter (·.key? = some k)) := by
    refine search_finds hs hdecodes fun r hr e he => ?_
    obtain ⟨k', hk'⟩ := exists_key hs (Multiset.mem_of_mem_filter hr)
    have hfirst := Payload.key_of_decode he (Record.key?_eq_some_iff.mp hk')
    have hasking : Template.ofKey k = .asking [(0, k)] := rfl
    rw [hk', hasking, Template.agree_asking, List.forall_mem_singleton, hfirst]
    have hwide : (Template.asking [(0, k)]).width ≤ e.length := (List.getElem?_eq_some_iff.mp hfirst).1
    have hlast : Template.last? [(0, k)] 0 = some k := rfl
    rw [hlast]
    exact ⟨fun h => ⟨hwide, h⟩, And.right⟩
  refine ⟨fun calls => ?_, ?_, fun k r hr hk => ?_, fun k hnone => ?_⟩
  · refine search_finds hs hdecodes fun r hr e he => ?_
    rw [Template.agree_asking]
    simp only [Template.meets, he, decide_eq_true_eq]
    exact Iff.rfl
  · have hall : s.Finds .any (s.unexpired.filter fun _ => True) := search_finds hs hdecodes fun r hr e he =>
      iff_of_true trivial ⟨Nat.zero_le _, Template.agree_nil e⟩
    rwa [Multiset.filter_true] at hall
  · have hone : s.unexpired.filter (·.key? = some k) = {r} := by
      unfold unexpired at hr ⊢
      obtain ⟨hmem, hlasts⟩ := Multiset.mem_filter.mp hr
      rw [Multiset.filter_comm, filter_key hs hmem hk, Multiset.filter_singleton, if_pos hlasts]
    exact hone ▸ hkey k
  · rw [← Multiset.filter_eq_nil.mpr hnone]
    exact hkey k

variable {schema : Schema} {config : StoreConfig} {memory : Memory} {notifier : Notifier} {clock : Clock}
  {draw : Nat → Nat} {s₀ : Store}

/-- Whatever a store has gone through without an entry being torn: while only calls for room are made to fail and what
    is not over can be decoded, searches find what was asked for and nothing else. -/
theorem searches_of_endured {trials : List Trial} (hs₀ : create schema config memory notifier clock draw = .ok s₀)
    (hlegible : memory.Legible) (hsound : memory.arena.Sound) (hendures : Endures trials s₀) (hs : s = endure trials s₀)
    (hsteady : s.memory.Steady) (hdecodes : s.Decodes) : s.Searches := by
  have horderly : s.Orderly := hs ▸ endure_orderly hendures (orderly_of_create hs₀ hlegible hsound)
  exact searches (horderly.wellFormed_of_steady hsteady) hdecodes

/-- The first put is refused the room. One of the two entries that are put then is over when they are searched. -/
theorem searches_of_lifetimes :
    (endure [.plan (.single .allocate 0), .ask (.put [1, 0, 1, 1] 5), .ask (.put [1, 0, 1, 1] 5),
      .ask (.put [2, 0, 1, 0, 0] 100), .ask (.setClock 9)] fourSlots).Searches := by
  have hmade : create ⟨"Entry", [⟨"id", .bool⟩]⟩ { minSegments := 1, maxSegments := 1, segmentCapacity := 4 } .empty
      (.silent "Entry") ⟨0⟩ (Placement.evenly 1 1) = .ok fourSlots := rfl
  have hplanned : (made ⟨"Entry", [⟨"id", .bool⟩]⟩ { minSegments := 1, maxSegments := 1, segmentCapacity := 4 }
      ⟨.empty none, .single .allocate 0⟩ (.silent "Entry") ⟨0⟩ (Placement.evenly 1 1)).WellFormed :=
    wellFormed_made rfl ⟨rfl, rfl, rfl⟩ (Arena.sound_empty none)
  have hfits : ∀ q ∈ [Request.put [1, 0, 1, 1] 5, .put [1, 0, 1, 1] 5, .put [2, 0, 1, 0, 0] 100, .setClock 9],
      q.Fits ⟨"Entry", [⟨"id", .bool⟩]⟩ := by
    have hfour : 4 < Record.lengthLimit := by decide
    have hfive : 5 < Record.lengthLimit := by decide
    exact List.forall_mem_cons.mpr ⟨hfour, List.forall_mem_cons.mpr ⟨hfour, List.forall_mem_cons.mpr ⟨hfive,
      List.forall_mem_cons.mpr ⟨trivial, nofun⟩⟩⟩⟩
  have hendures : Endures [.plan (.single .allocate 0), .ask (.put [1, 0, 1, 1] 5), .ask (.put [1, 0, 1, 1] 5),
      .ask (.put [2, 0, 1, 0, 0] 100), .ask (.setClock 9)] fourSlots := ⟨rfl, hplanned.endures hfits⟩
  generalize hs : endure _ fourSlots = s
  have hsteady : s.memory.Steady := by
    subst hs
    exact ⟨by decide +kernel, by decide +kernel, by decide +kernel⟩
  have hleft : s.unexpired = {⟨[2, 0, 1, 0, 0], 0, 100, ⟨2⟩⟩} := by
    subst hs
    decide +kernel
  refine searches_of_endured hmade rfl (Arena.sound_empty none) hendures hs.symm hsteady fun r hr => ?_
  rw [hleft, Multiset.mem_singleton] at hr
  rw [hr]
  exact ⟨[.bool false, .null], rfl⟩

/-! ### What failing calls can do to searches -/

/-- A search answers what it is to find and evicts what is over, unless a listener breaks. -/
theorem Finds.cases {rs : Multiset Record} (h : s.Finds tm rs) :
    ((answer (.matching tm) s).1 = .payloads (rs.map (·.payload)) ∧
      (answer (.matching tm) s).2.records + s.overdue = s.records) ∨
    (answer (.matching tm) s).1 = .failed (.abort .listener) := by
  rcases h.matching with ⟨matched, s', hrun, hmatched, hevicts⟩ | ⟨s', rs', hrun, -⟩
  · rw [answer, respond_ok hrun, ← hmatched]
    exact Or.inl ⟨rfl, hevicts.split⟩
  · rw [answer, respond_error hrun]
    exact Or.inr rfl

/-- The key of the entry that was cut off has been put again. -/
@[irreducible] def doubled : Store := (answer (.put [1, 0, 1, 0, 7] Lifetime.forever) (severed Lifetime.forever)).2

/-- The entry that was cut off is over. -/
@[irreducible] def outlived : Store := (answer (.setClock 9) (severed 5)).2

/-- Once a read has failed while an entry was removed, a key can get a second entry, which is found beside the first
    one, and an entry that is over is not evicted. Once an entry was torn no search is answered. -/
theorem not_searches_of_failing_calls :
    (doubled.Decodes ∧
      (answer (.matching (.ofKey (.bool false))) doubled).1 = .payloads {[1, 0, 1, 0, 7], [1, 0, 1, 0]} ∧
      ¬ doubled.Searches) ∧
    (outlived.Decodes ∧ outlived.overdue = {⟨[1, 0, 1, 0], 0, 5, ⟨2⟩⟩} ∧
      (answer (.matching .any) outlived).2.records = {⟨[1, 0, 1, 0], 0, 5, ⟨2⟩⟩} ∧ ¬ outlived.Searches) ∧
    (torn.Decodes ∧ (answer (.matching .any) torn).1 = .failed (.error (.invalidHandle ⟨1⟩)) ∧ ¬ torn.Searches) := by
  have hboth : doubled.unexpired = {⟨[1, 0, 1, 0, 7], 0, Lifetime.forever, ⟨3⟩⟩, ⟨[1, 0, 1, 0], 0, Lifetime.forever, ⟨2⟩⟩} := by
    decide +kernel
  have htwice : (answer (.matching (.ofKey (.bool false))) doubled).1 =
      .payloads {[1, 0, 1, 0, 7], [1, 0, 1, 0]} := by decide +kernel
  have hnone : outlived.unexpired = 0 := by decide +kernel
  have hall : outlived.records = {⟨[1, 0, 1, 0], 0, 5, ⟨2⟩⟩} := by decide +kernel
  have hover : outlived.overdue = {⟨[1, 0, 1, 0], 0, 5, ⟨2⟩⟩} := by decide +kernel
  have hanswered : (answer (.matching .any) outlived).1 = .payloads 0 := by decide +kernel
  have hkept : (answer (.matching .any) outlived).2.records = {⟨[1, 0, 1, 0], 0, 5, ⟨2⟩⟩} := by decide +kernel
  have hgone : torn.unexpired = 0 := by decide +kernel
  have hfails : (answer (.matching .any) torn).1 = .failed (.error (.invalidHandle ⟨1⟩)) := by decide +kernel
  refine ⟨⟨fun r hr => ?_, htwice, fun h => ?_⟩, ⟨fun r hr => ?_, hover, hkept, fun h => ?_⟩,
    ⟨fun r hr => ?_, hfails, fun h => ?_⟩⟩
  · rw [hboth, Multiset.insert_eq_cons, Multiset.mem_cons, Multiset.mem_singleton] at hr
    rcases hr with rfl | rfl
    · exact ⟨[.bool false], rfl⟩
    · exact ⟨[.bool false], rfl⟩
  · have hone : ⟨[1, 0, 1, 0], 0, Lifetime.forever, ⟨2⟩⟩ ∈ doubled.unexpired := by
      rw [hboth]
      exact Multiset.mem_cons_of_mem (Multiset.mem_singleton_self _)
    rcases (h.byKey (.bool false) _ hone rfl).cases with ⟨hfound, -⟩ | hbroken
    · rw [htwice, Multiset.map_singleton] at hfound
      exact absurd (congrArg Multiset.card (Response.payloads.inj hfound)) (by decide)
    · rw [htwice] at hbroken
      cases hbroken
  · rw [hnone] at hr
    exact absurd hr (Multiset.notMem_zero r)
  · rcases h.all.cases with ⟨-, hrecords⟩ | hbroken
    · rw [hkept, hover, hall] at hrecords
      exact absurd (congrArg Multiset.card hrecords) (by decide)
    · rw [hanswered] at hbroken
      cases hbroken
  · rw [hgone] at hr
    exact absurd hr (Multiset.notMem_zero r)
  · rcases h.all.cases with ⟨hfound, -⟩ | hbroken
    · rw [hfails] at hfound
      cases hfound
    · rw [hfails] at hbroken
      cases hbroken

end Store

end RecordStore
