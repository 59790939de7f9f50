import RecordStore.Proofs.Store.Errands

/-! # Errands in any order

Parties that ask about different keys take turns. Each is told what it is told alone, so that the order of the turns
shows in no answer, and the entries that are left are the same. Meanwhile the sweeper may come and time may pass. -/

namespace RecordStore.Store

/-! ### Schedules -/

/-- What happens next: somebody acts, the sweeper comes, or the clock is set. -/
inductive Happening (α : Type)
  | act (a : α)
  | sweep
  | tick (wall : Int)

/-- Who does what, in the order of the turns. -/
abbrev Schedule (ι α : Type) := List (Happening (ι × α))

variable {ι α : Type} [DecidableEq ι]

/-- What a party does. -/
def Happening.by? (i : ι) : Happening (ι × α) → Option α
  | act a => if a.1 = i then some a.2 else none
  | sweep => none
  | tick _ => none

/-- The request that is made of the store. -/
def Happening.request : Happening (ι × Errand) → Request
  | act a => a.2.request
  | sweep => .evictExpired
  | tick wall => .setClock wall

namespace Schedule

/-- What a party does, in its own order. -/
def own (i : ι) (S : Schedule ι α) : List α := S.filterMap (Happening.by? i)

/-- What a party is told. -/
def told (i : ι) : Schedule ι Errand → Store → List Response
  | [], _ => []
  | x :: S, s => ((x.by? i).map fun _ => (answer x.request s).1).toList ++ told i S (answer x.request s).2

/-- The store in the end. -/
def after (S : Schedule ι Errand) (s : Store) : Store := (run (S.map Happening.request) s).2

end Schedule

open Schedule

/-- Some errands, one after the other. -/
def runErrands (errands : List Errand) (s : Store) : List Response × Store := run (errands.map Errand.request) s

/-- Each errand is bearable when its turn comes. -/
def AllBearable : List Errand → Store → Prop
  | [], _ => True
  | q :: errands, s => q.Bearable s ∧ AllBearable errands (answer q.request s).2

variable {s s' t : Store} {f g : Value → Option Bytes} {q : Errand} {i j : ι} {S S' : Schedule ι Errand}

theorem Stocks.allBearable {errands : List Errand} (hs : s.Stocks f)
    (h : ∀ q ∈ errands, ∀ t : Store, t.schema = s.schema → q.Bearable t) : AllBearable errands s := by
  induction errands generalizing s f with
  | nil => trivial
  | cons q errands ih =>
    have hq := h q List.mem_cons_self s rfl
    have hdone := hs.executes hq
    exact ⟨hq, ih hdone.stocks fun q' hq' t ht => h q' (List.mem_cons_of_mem q hq') t (ht.trans hdone.schema)⟩

theorem own_self (a : α) (S : Schedule ι α) : own i (.act (i, a) :: S) = a :: own i S :=
  List.filterMap_cons_some (if_pos rfl)

theorem own_other (h : j ≠ i) (a : α) (S : Schedule ι α) : own i (.act (j, a) :: S) = own i S :=
  List.filterMap_cons_none (if_neg h)

theorem told_self (q : Errand) (S : Schedule ι Errand) (s : Store) :
    told i (.act (i, q) :: S) s = (answer q.request s).1 :: told i S (answer q.request s).2 := by
  rw [told, Happening.by?, if_pos rfl]
  rfl

theorem told_other (h : j ≠ i) (q : Errand) (S : Schedule ι Errand) (s : Store) :
    told i (.act (j, q) :: S) s = told i S (answer q.request s).2 := by
  rw [told, Happening.by?, if_neg h]
  rfl

/-! ### What nobody notices -/

namespace Stocks

/-- Where everything lasts for ever a sweep finds nothing to do. -/
theorem sweep (hs : s.Stocks f) :
    (answer .evictExpired s).2.Stocks f ∧ (answer .evictExpired s).2.schema = s.schema := by
  obtain ⟨n, s', hrun, hleads, -⟩ := (evictExpired_ok hs.unhindered.wellFormed).resolve_right hs.unhindered.not_breaks
  rw [hs.unexpired_eq] at hleads
  rw [answer, respond_ok hrun]
  exact ⟨hs.same hleads, hleads.keeps.schema⟩

theorem tick (hs : s.Stocks f) (wall : Int) : (answer (.setClock wall) s).2.Stocks f where
  unhindered := hs.unhindered.of_leads (Leads.refl (hs.unhindered.wellFormed.setClock (s.clock.set wall)))
  owns := hs.owns
  lasting := hs.lasting
  stored := hs.stored

end Stocks

/-! ### Each party by itself -/

theorem Errand.key?_of_offers {schema : Schema} {payload : Bytes} {ttl : Lifetime}
    (h : q.request.Offers schema payload ttl) : q.key? schema = (Payload.key payload).toOption := by
  cases q with
  | put payload' =>
    obtain ⟨rfl, -⟩ := h
    rfl
  | putEntity e =>
    obtain ⟨he, -⟩ := h
    rw [Errand.key?, he]
    rfl
  | _ => exact h.elim

/-- What can be borne depends on the payload of the key alone. -/
theorem Errand.Bearable.congr (hq : q.Bearable t) (ht : t.Stocks g) (hs : s.Stocks f) (hschema : t.schema = s.schema)
    (hsame : ∀ k, q.key? s.schema = some k → f k = g k) : q.Bearable s := by
  intro payload hoffers
  refine (hq payload (hschema ▸ hoffers)).imp id fun hnew => ⟨hnew.1, fun k hk r hr hkey => ?_⟩
  have hfound := (hs.stored k r.payload).mpr ⟨r, hr, hkey, rfl⟩
  rw [hsame k (by rw [Errand.key?_of_offers hoffers, hk]; rfl), ht.absent (hnew.2 k hk)] at hfound
  cases hfound

section Apart
variable {K : ι → Set Value} {T : ι → Store}

/-- Under those keys the store has the payloads that are told. -/
def Echoes (schema : Schema) (f : Value → Option Bytes) (keys : Set Value) (t : Store) : Prop :=
  t.schema = schema ∧ ∃ g, t.Stocks g ∧ ∀ k ∈ keys, f k = g k

/-- Beside the common store each party has one of its own, in which the keys of the party have the same payloads. -/
structure Apart (K : ι → Set Value) (s : Store) (f : Value → Option Bytes) (T : ι → Store) : Prop where
  common : s.Stocks f
  alone : ∀ i, Echoes s.schema f (K i) (T i)

/-- A party acts in the common store and in its own. -/
theorem Apart.act (hK : ∀ i j, ∀ k ∈ K i, k ∈ K j → i = j) (hap : Apart K s f T)
    (hkeys : ∀ k, q.key? s.schema = some k → k ∈ K j) (hq : q.Bearable (T j)) :
    (answer q.request s).1 = (answer q.request (T j)).1 ∧ (answer q.request s).2.schema = s.schema ∧
      Apart K (answer q.request s).2 (q.carryOut s.schema f).2
        (Function.update T j (answer q.request (T j)).2) := by
  obtain ⟨hschema, g, hg, hagree⟩ := hap.alone j
  have hsame (k : Value) (hk : q.key? s.schema = some k) : f k = g k := hagree k (hkeys k hk)
  have hcommon := hap.common.executes (hq.congr hg hap.common hschema hsame)
  have hown := hg.executes hq
  obtain ⟨htold, hcarry⟩ := Errand.carryOut_congr hsame
  rw [← hschema] at htold hcarry
  refine ⟨?_, hcommon.schema, hcommon.stocks, (Function.forall_update_iff T _).mpr ⟨?_, fun i hij => ?_⟩⟩
  · rw [hcommon.told, hown.told, ← hschema, htold]
  · refine ⟨hown.schema.trans (hschema.trans hcommon.schema.symm), _, hown.stocks, fun k hk => ?_⟩
    rw [← hschema]
    exact hcarry k (hagree k hk)
  · -- The keys of the one party are no keys of the other.
    obtain ⟨hschema', g', hg', hagree'⟩ := hap.alone i
    refine ⟨hschema'.trans hcommon.schema.symm, g', hg', fun k hk => ?_⟩
    have hother : q.key? s.schema ≠ some k := fun hkey => hij (hK i j k hk (hkeys k hkey))
    rw [Errand.carryOut_other hother]
    exact hagree' k hk

/-- Each party is told what it is told alone, and leaves under its keys what it leaves alone. -/
theorem told_of_apart (hK : ∀ i j, ∀ k ∈ K i, k ∈ K j → i = j) (hap : Apart K s f T)
    (hkeys : ∀ i, ∀ q ∈ own i S, ∀ k, q.key? s.schema = some k → k ∈ K i)
    (hbearable : ∀ i, AllBearable (own i S) (T i)) :
    (∀ i, told i S s = (runErrands (own i S) (T i)).1) ∧
      ∃ f', Apart K (after S s) f' (fun i => (runErrands (own i S) (T i)).2) ∧ ∀ k, (∀ i, k ∉ K i) → f' k = f k := by
  induction S generalizing s f T with
  | nil => exact ⟨fun i => rfl, f, hap, fun k hk => rfl⟩
  | cons x S ih =>
    cases x with
    | sweep =>
      obtain ⟨hstocks, hschema⟩ := hap.common.sweep
      exact ih ⟨hstocks, hschema.symm ▸ hap.alone⟩ (fun i q hq => hschema.symm ▸ hkeys i q hq) hbearable
    | tick wall => exact ih ⟨hap.common.tick wall, hap.alone⟩ hkeys hbearable
    | act a =>
      obtain ⟨j, q⟩ := a
      have hj := own_self (i := j) q S
      obtain ⟨hq, hrest⟩ := hj ▸ hbearable j
      have hkeys_q : ∀ k, q.key? s.schema = some k → k ∈ K j := hkeys j q (hj ▸ List.mem_cons_self)
      obtain ⟨hanswer, hschema, hnext⟩ := hap.act hK hkeys_q hq
      -- For the others it is as if nothing had been done.
      have hparty (i : ι) : (∀ q' ∈ own i S, q' ∈ own i (.act (j, q) :: S)) ∧
          AllBearable (own i S) (Function.update T j (answer q.request (T j)).2 i) ∧
          (runErrands (own i (.act (j, q) :: S)) (T i)).2 =
            (runErrands (own i S) (Function.update T j (answer q.request (T j)).2 i)).2 ∧
          (told i S (answer q.request s).2 =
              (runErrands (own i S) (Function.update T j (answer q.request (T j)).2 i)).1 →
            told i (.act (j, q) :: S) s = (runErrands (own i (.act (j, q) :: S)) (T i)).1) := by
        by_cases hij : i = j
        · subst hij
          rw [hj, Function.update_self, told_self, hanswer]
          exact ⟨fun q' => List.mem_cons_of_mem q, hrest, rfl, congrArg _⟩
        · have hothers := own_other (Ne.symm hij) q S
          rw [hothers, Function.update_of_ne hij, told_other (Ne.symm hij)]
          exact ⟨fun q' => id, hothers ▸ hbearable i, rfl, id⟩
      obtain ⟨htold, f', hafter, houtside⟩ := ih hnext
        (fun i q' hq' => hschema.symm ▸ hkeys i q' ((hparty i).1 q' hq')) fun i => (hparty i).2.1
      refine ⟨fun i => (hparty i).2.2.2 (htold i), f', ?_, fun k hk => (houtside k hk).trans ?_⟩
      · rw [funext fun i => (hparty i).2.2.1]
        exact hafter
      · exact Errand.carryOut_other fun hkey => hk j (hkeys_q k hkey)

end Apart

/-! ### Any order -/

/-- Who looks at what is stored, and how much it is, finds no difference. -/
structure Alike (s s' : Store) : Prop where
  entries : s'.records.map (fun r => (r.payload, r.ttl)) = s.records.map fun r => (r.payload, r.ttl)
  items : s'.size = s.size
  bytes : s'.bytesUsed = s.bytesUsed
  live : s'.memory.arena.liveCount = s.memory.arena.liveCount

/-- The parties ask about different keys, what they put can be borne, and each does the same in the same order both
    times. -/
structure Reorders (K : ι → Set Value) (S S' : Schedule ι Errand) (s : Store) : Prop where
  apart : ∀ i j, ∀ k ∈ K i, k ∈ K j → i = j
  keys : ∀ i, ∀ q ∈ own i S, ∀ k, q.key? s.schema = some k → k ∈ K i
  bearable : ∀ i, AllBearable (own i S) s
  same : ∀ i, own i S' = own i S

variable {K : ι → Set Value}

namespace Stocks

theorem nodup_payloads (hs : s.Stocks f) : (s.records.map (·.payload)).Nodup := by
  have hwell := hs.unhindered.wellFormed
  refine Multiset.Nodup.map_on (fun r hr r' hr' hsame => ?_) (nodup_records hwell)
  obtain ⟨k, hk⟩ := exists_key hwell hr
  refine eq_of_key hwell hr hk hr' ?_
  rw [Record.key?, ← show r.payload = r'.payload from hsame]
  exact hk

theorem mem_payloads (hs : s.Stocks f) (p : Bytes) : p ∈ s.records.map (·.payload) ↔ ∃ k, f k = some p := by
  rw [Multiset.mem_map]
  constructor
  · rintro ⟨r, hr, rfl⟩
    obtain ⟨k, hk⟩ := exists_key hs.unhindered.wellFormed hr
    exact ⟨k, (hs.stored k _).mpr ⟨r, hr, hk, rfl⟩⟩
  · rintro ⟨k, hk⟩
    obtain ⟨r, hr, -, rfl⟩ := (hs.stored k p).mp hk
    exact ⟨r, hr, rfl⟩

/-- Stores with the same payloads under their keys look alike. -/
theorem alike (hs : s.Stocks f) (hs' : s'.Stocks f) : Alike s s' := by
  have hpayloads : s'.records.map (·.payload) = s.records.map (·.payload) :=
    (Multiset.Nodup.ext hs'.nodup_payloads hs.nodup_payloads).mpr fun p =>
      (hs'.mem_payloads p).trans (hs.mem_payloads p).symm
  have hentries {t : Store} (ht : t.Stocks f) : t.records.map (fun r => (r.payload, r.ttl)) =
      (t.records.map (·.payload)).map fun p => (p, Lifetime.forever) := by
    rw [Multiset.map_map]
    exact Multiset.map_congr rfl fun r hr => Prod.ext rfl (ht.lasting r hr)
  have hsizes {t : Store} :
      weight t.records = ((t.records.map (·.payload)).map fun p => Record.sizeFor p.length).sum := by
    rw [Multiset.map_map]
    rfl
  have hcard := congrArg Multiset.card hpayloads
  rw [Multiset.card_map, Multiset.card_map] at hcard
  have hwell := hs.unhindered.wellFormed
  have hwell' := hs'.unhindered.wellFormed
  have hitems : s'.size = s.size := by rw [size, size, hwell.items, hwell'.items, hcard]
  refine ⟨?_, hitems, ?_, ?_⟩
  · rw [hentries hs, hentries hs', hpayloads]
  · rw [bytesUsed, bytesUsed, hwell.bytes, hwell'.bytes, hsizes, hsizes, hpayloads]
  · rw [liveCount_eq_size hwell hs.owns, liveCount_eq_size hwell' hs'.owns, hitems]

/-- The order of the turns is of no consequence. -/
theorem commute (hs : s.Stocks f) (h : Reorders K S S' s) :
    (∀ i, Schedule.told i S' s = Schedule.told i S s) ∧ Alike (after S s) (after S' s) := by
  have hap : Apart K s f fun _ => s := ⟨hs, fun _ => ⟨rfl, f, hs, fun _ _ => rfl⟩⟩
  obtain ⟨htold, f₁, hafter₁, houtside₁⟩ := told_of_apart h.apart hap h.keys h.bearable
  obtain ⟨htold', f₂, hafter₂, houtside₂⟩ := told_of_apart (S := S') h.apart hap
    (fun i => (h.same i).symm ▸ h.keys i) fun i => (h.same i).symm ▸ h.bearable i
  refine ⟨fun i => by rw [htold, htold', h.same], hafter₁.common.alike ?_⟩
  have hall : f₂ = f₁ := by
    funext k
    by_cases hk : ∃ i, k ∈ K i
    · obtain ⟨i, hi⟩ := hk
      obtain ⟨-, g₁, hg₁, hagree₁⟩ := hafter₁.alone i
      obtain ⟨-, g₂, hg₂, hagree₂⟩ := hafter₂.alone i
      rw [h.same i] at hg₂
      rw [hagree₁ k hi, hagree₂ k hi, hg₁.unique hg₂]
    · rw [houtside₁ k (not_exists.mp hk), houtside₂ k (not_exists.mp hk)]
  exact hall ▸ hafter₂.common

end Stocks

/-! ### Where schedules begin -/

theorem Unhindered.run {requests : List Request} (hs : s.Unhindered) (hfits : ∀ q ∈ requests, q.Fits s.schema) :
    (Store.run requests s).2.Unhindered ∧ (Store.run requests s).2.schema = s.schema := by
  induction requests generalizing s with
  | nil => exact ⟨hs, rfl⟩
  | cons q requests ih =>
    obtain ⟨clock, rs, hleads⟩ := answer_leads hs.wellFormed (hfits q List.mem_cons_self)
    have hschema : (answer q s).2.schema = s.schema := hleads.keeps.schema
    obtain ⟨hrest, hlast⟩ := ih (hs.of_leads hleads) fun q' hq' => hschema.symm ▸ hfits q' (List.mem_cons_of_mem q hq')
    exact ⟨hrest, hlast.trans hschema⟩

theorem Unhindered.stocks (hs : s.Unhindered) (howns : s.Owns) (hlasting : ∀ r ∈ s.records, r.ttl = Lifetime.forever) :
    s.Stocks fun k => (s.finds k).map (·.payload) := by
  refine ⟨hs, howns, hlasting, fun k p => ?_⟩
  by_cases hstored : ∃ r ∈ s.records, r.key? = some k
  · obtain ⟨r, hr, hk⟩ := hstored
    rw [finds_record hs.wellFormed hr hk, Option.map_some, Option.some.injEq]
    constructor
    · rintro rfl
      exact ⟨r, hr, hk, rfl⟩
    · rintro ⟨r', hr', hk', rfl⟩
      rw [eq_of_key hs.wellFormed hr hk hr' hk']
  · have hnew : ∀ r ∈ s.records, r.key? ≠ some k := fun r hr hk => hstored ⟨r, hr, hk⟩
    rw [finds_none hs.wellFormed hnew]
    refine iff_of_false (fun h => by cases h) ?_
    rintro ⟨r, hr, hk, -⟩
    exact hnew r hr hk

variable {schema : Schema} {config : StoreConfig} {memory : Memory} {notifier : Notifier} {clock : Clock}
  {draw : Nat → Nat}

/-- Whatever a store without limits has gone through, it stocks what it has if that lasts for ever. -/
theorem stocks_of_run {requests : List Request} (hs : create schema config memory notifier clock draw = .ok s)
    (hunlimited : config.maxItems? = none ∧ config.maxBytes? = none) (hlimit : memory.arena.limit? = none)
    (hsound : memory.arena.Sound) (hunused : ∀ h, memory.arena.block? h = none) (hfaults : memory.faults = .never)
    (hcalm : notifier.Calm) (hfits : ∀ q ∈ requests, q.Fits schema)
    (hlasting : ∀ r ∈ (run requests s).2.records, r.ttl = Lifetime.forever) :
    (∃ f, (run requests s).2.Stocks f) ∧ (run requests s).2.schema = schema := by
  obtain ⟨hvalid, rfl⟩ := of_create hs
  have hsteady : memory.Steady := by
    rw [Memory.Steady, hfaults]
    exact ⟨rfl, rfl, rfl⟩
  have hmade : (made schema config memory notifier clock draw).Unhindered :=
    ⟨wellFormed_made hvalid hsteady hsound, hunlimited.1, hunlimited.2, hlimit, hfaults, hcalm⟩
  have howns : (made schema config memory notifier clock draw).Owns := fun h hlive => absurd (hunused h) hlive
  obtain ⟨hrun, hschema⟩ := hmade.run hfits
  exact ⟨⟨_, hrun.stocks ((run_wellFormed hmade.wellFormed hfits).2 howns) hlasting⟩, hschema⟩

end RecordStore.Store
