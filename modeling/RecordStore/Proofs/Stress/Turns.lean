import Mathlib.Algebra.BigOperators.Group.Finset.Piecewise
import RecordStore.Proofs.Stress.Steps

/-! # The stress workload in any order

The workers may take turns in any order, the sweeper may come and time may pass: the figures are those of the run in
which one worker follows the other. -/

namespace RecordStore.Stress

open Store (Errand Happening Schedule Stocks)
open Store.Schedule

variable {o : Options} {turns turns' : Schedule Nat Nat} {worker op matched : Nat} {s s' : Store}
  {f : Value → Option Bytes}

/-! ### Turns -/

/-- The steps of the workers in the order of their turns. A worker's steps are told by their numbers. -/
def takeTurns (o : Options) : Schedule Nat Nat → (matched : Nat) → Store.Op Nat
  | [], matched => return matched
  | .act a :: turns, matched => do
    let more ← step o a.1 a.2
    takeTurns o turns (matched + more)
  | .sweep :: turns, matched => do
    let _ ← Store.evictExpired
    takeTurns o turns matched
  | .tick wall :: turns, matched => do
    modify fun s => { s with clock := s.clock.set wall }
    takeTurns o turns matched

/-- Each worker takes all of its steps, one after the other. -/
def Complete (o : Options) (turns : Schedule Nat Nat) : Prop :=
  ∀ worker, own worker turns = if worker < o.threads then List.range o.ops else []

/-- What is asked in the course of the turns. -/
def errands (o : Options) (turns : Schedule Nat Nat) : Schedule Nat Errand :=
  turns.map fun
    | .act a => .act (a.1, errand o a.1 a.2)
    | .sweep => .sweep
    | .tick wall => .tick wall

theorem own_errands (o : Options) (worker : Nat) (turns : Schedule Nat Nat) :
    own worker (errands o turns) = (own worker turns).map (errand o worker) := by
  unfold own errands
  rw [List.filterMap_map, List.map_filterMap]
  refine List.filterMap_congr fun x _ => ?_
  cases x with
  | act a =>
    by_cases hw : a.1 = worker
    · simp [Happening.by?, hw]
    · simp [Happening.by?, hw]
  | sweep => rfl
  | tick wall => rfl

/-- The matches that all workers are told of. -/
def matchesOf (threads : Nat) (S : Schedule Nat Errand) (s : Store) : Nat :=
  ∑ w ∈ Finset.range threads, ((told w S s).map matchCount).sum

theorem matchesOf_act (hw : worker < o.threads) (q : Errand) (S : Schedule Nat Errand) (s : Store) :
    matchesOf o.threads (.act (worker, q) :: S) s =
      matchCount (Store.answer q.request s).1 + matchesOf o.threads S (Store.answer q.request s).2 := by
  have hone (w : Nat) : ((told w (.act (worker, q) :: S) s).map matchCount).sum =
      (if worker = w then matchCount (Store.answer q.request s).1 else 0) +
        ((told w S (Store.answer q.request s).2).map matchCount).sum := by
    by_cases hsame : worker = w
    · subst hsame
      rw [Store.told_self, if_pos rfl, List.map_cons, List.sum_cons]
    · rw [Store.told_other hsame, if_neg hsame, zero_add]
  unfold matchesOf
  rw [Finset.sum_congr rfl fun w _ => hone w, Finset.sum_add_distrib, Finset.sum_ite_eq,
    if_pos (Finset.mem_range.mpr hw)]

/-- The steps in the course of the turns are answered like the errands. -/
theorem takeTurns_ok (hforever : o.ttlMillis = 0) (hthreads : o.threads ≤ maxThreads) (hs : s.Stocks f)
    (hschema : s.schema = accounts) (hturns : ∀ w, own w turns ≠ [] → w < o.threads) (matched : Nat) :
    takeTurns o turns matched s =
      .ok (matched + matchesOf o.threads (errands o turns) s) (after (errands o turns) s) := by
  induction turns generalizing s f matched with
  | nil =>
    have hnone : matchesOf o.threads [] s = 0 := Finset.sum_eq_zero fun w _ => rfl
    rw [errands, List.map_nil, hnone]
    rfl
  | cons x turns ih =>
    cases x with
    | sweep =>
      obtain ⟨n, s', hrun, -⟩ :=
        (Store.evictExpired_ok hs.unhindered.wellFormed).resolve_right hs.unhindered.not_breaks
      obtain ⟨hstocks, hsame⟩ := hs.sweep
      have hrest := ih hstocks (hsame.trans hschema) hturns matched
      have hanswer : (Store.answer .evictExpired s).2 = s' := congrArg Prod.snd (Store.respond_ok hrun)
      rw [hanswer] at hrest
      refine ((Action.bind_ok hrun).trans hrest).trans ?_
      rw [← hanswer]
      rfl
    | tick wall => exact ih (hs.tick wall) hschema hturns matched
    | act a =>
      obtain ⟨w, op⟩ := a
      have hw : w < o.threads := hturns w (by rw [Store.own_self]; exact List.cons_ne_nil _ _)
      have hword : w < wordLimit := (hw.trans_le hthreads).trans (by decide)
      have hdone := hs.executes (bearable_errand (o := o) hschema hword op)
      have hstep : step o w op s = _ := step_of_answer hforever fun e => by
        rw [hdone.told, hschema]
        exact carryOut_errand hword op f e
      have hrest := ih hdone.stocks (hdone.schema.trans hschema) (fun w' hw' => hturns w' fun hnone => hw' ?_)
        (matched + matchCount (Store.answer (errand o w op).request s).1)
      · refine ((Action.bind_ok hstep).trans hrest).trans ?_
        rw [Nat.add_assoc, ← matchesOf_act hw]
        rfl
      · by_cases hsame : w = w'
        · subst hsame
          rw [Store.own_self] at hnone
          cases hnone
        · rwa [Store.own_other hsame] at hnone

/-! ### One worker after the other -/

theorem takeTurns_append (o : Options) (turns turns' : Schedule Nat Nat) (matched : Nat) :
    takeTurns o (turns ++ turns') matched = takeTurns o turns matched >>= takeTurns o turns' := by
  induction turns generalizing matched with
  | nil => simp only [List.nil_append, takeTurns, pure_bind]
  | cons x turns ih =>
    cases x with
    | act a => simp only [List.cons_append, takeTurns, ih, bind_assoc]
    | sweep => simp only [List.cons_append, takeTurns, ih, bind_assoc]
    | tick wall => simp only [List.cons_append, takeTurns, ih, bind_assoc]

/-- The next `n` steps of a worker, from number `op` on. -/
def stepsOf (worker op n : Nat) : Schedule Nat Nat := (List.range' op n).map fun op => .act (worker, op)

/-- The next `n` workers, from number `worker` on, one after the other. -/
def oneByOne (o : Options) (worker n : Nat) : Schedule Nat Nat := (List.range' worker n).flatMap (stepsOf · 0 o.ops)

theorem runWorker_eq (o : Options) (worker n op matched : Nat) :
    runWorker o worker n op matched = takeTurns o (stepsOf worker op n) matched := by
  induction n generalizing op matched with
  | zero => rfl
  | succ n ih =>
    simp only [runWorker, stepsOf, List.range'_succ, List.map_cons, takeTurns, ih]

theorem runWorkers_eq (o : Options) (n worker matched : Nat) :
    runWorkers o n worker matched = takeTurns o (oneByOne o worker n) matched := by
  induction n generalizing worker matched with
  | zero => rfl
  | succ n ih =>
    simp only [runWorkers, oneByOne, List.range'_succ, List.flatMap_cons, takeTurns_append, runWorker_eq, ih]

theorem own_stepsOf (w worker op n : Nat) :
    own w (stepsOf worker op n) = if worker = w then List.range' op n else [] := by
  unfold own stepsOf
  rw [List.filterMap_map]
  by_cases hw : worker = w
  · rw [if_pos hw, show (Happening.by? w ∘ fun op => .act (worker, op)) = some from funext fun op => if_pos hw,
      List.filterMap_some]
  · rw [if_neg hw]
    exact List.filterMap_eq_nil_iff.mpr fun op _ => if_neg hw

theorem complete_oneByOne (o : Options) : Complete o (oneByOne o 0 o.threads) := by
  have hfrom (w worker n : Nat) :
      own w (oneByOne o worker n) = if worker ≤ w ∧ w < worker + n then List.range o.ops else [] := by
    induction n generalizing worker with
    | zero => rw [if_neg (by omega)]; rfl
    | succ n ih =>
      have hcons : oneByOne o worker (n + 1) = stepsOf worker 0 o.ops ++ oneByOne o (worker + 1) n := by
        simp only [oneByOne, List.range'_succ, List.flatMap_cons]
      have hown : own w (stepsOf worker 0 o.ops ++ oneByOne o (worker + 1) n) =
          own w (stepsOf worker 0 o.ops) ++ own w (oneByOne o (worker + 1) n) := List.filterMap_append ..
      rw [hcons, hown, own_stepsOf, ih, ← List.range_eq_range']
      by_cases hw : worker = w
      · rw [if_pos hw, if_neg (by omega), if_pos (by omega), List.append_nil]
      · rw [if_neg hw, List.nil_append]
        refine if_congr (by omega) rfl rfl
  intro w
  rw [hfrom]
  exact if_congr (by omega) rfl rfl

/-! ### Figures -/

/-- The keys of a worker. -/
def keysOf (worker : Nat) : Set Value := Set.range (keyOf worker)

theorem apart_keysOf (w w' : Nat) : ∀ k ∈ keysOf w, k ∈ keysOf w' → w = w' := by
  rintro k ⟨n, rfl⟩ ⟨n', hn'⟩
  exact (keyOf_inj.mp hn').1.symm

theorem Complete.lt_threads (hc : Complete o turns) (hw : own worker turns ≠ []) : worker < o.threads := by
  by_contra hnot
  exact hw ((hc worker).trans (if_neg hnot))

/-- The workers ask about different keys, and do the same whenever all of their steps are taken. -/
theorem Complete.reorders (hc : Complete o turns) (hc' : Complete o turns') (hthreads : o.threads ≤ maxThreads)
    (hs : s.Stocks f) (hschema : s.schema = accounts) :
    Store.Reorders keysOf (errands o turns) (errands o turns') s := by
  have hown (w : Nat) (q : Errand) (hq : q ∈ own w (errands o turns)) : w < wordLimit ∧ ∃ op, q = errand o w op := by
    rw [own_errands] at hq
    obtain ⟨op, hop, rfl⟩ := List.mem_map.mp hq
    have hw := hc.lt_threads (List.ne_nil_of_mem hop)
    exact ⟨(hw.trans_le hthreads).trans (by decide), op, rfl⟩
  refine ⟨apart_keysOf, fun w q hq k hk => ?_, fun w => hs.allBearable fun q hq t ht => ?_, fun w => ?_⟩
  · obtain ⟨hw, op, rfl⟩ := hown w q hq
    rw [hschema, key?_errand hw] at hk
    exact ⟨_, Option.some.inj hk⟩
  · obtain ⟨hw, op, rfl⟩ := hown w q hq
    exact bearable_errand (ht.trans hschema) hw op
  · rw [own_errands, own_errands, hc w, hc' w]

theorem newStore_ok (clock : Clock) : ∃ s, newStore clock = .ok s ∧ s.schema = accounts ∧ ∃ f, s.Stocks f := by
  have hcreate : newStore clock = Store.create accounts {} .empty
      (.toListener accounts.typeName counter (.queue { depth := 1024 })) clock (Placement.evenly 16 256) := rfl
  have hvalid : StoreConfig.validate {} = .ok () := rfl
  have hthreshold : StoreConfig.nominalCapacity {} * 15 < wordLimit := by decide
  have hcreated : ∃ s, newStore clock = .ok s := by
    rcases Store.create_of_valid hvalid hthreshold with hok | ⟨-, hlarge⟩
    · exact ⟨_, hcreate.trans hok⟩
    · exact absurd hlarge (by decide)
  obtain ⟨s, hs⟩ := hcreated
  have hempty : s.records = 0 := by
    obtain ⟨-, rfl⟩ := Store.of_create (hcreate.symm.trans hs)
    exact Store.records_made
  have hnone : ∀ r ∈ (Store.run [] s).2.records, r.ttl = Lifetime.forever := fun r hr => by
    rw [show (Store.run [] s).2.records = 0 from hempty] at hr
    cases hr
  obtain ⟨hstocks, hschema⟩ := Store.stocks_of_run (hcreate.symm.trans hs) ⟨rfl, rfl⟩ rfl (Arena.sound_empty none)
    (Arena.block?_empty none) rfl (fun h => by cases h) (fun q hq => by cases hq) hnone
  exact ⟨s, hs, hschema, hstocks⟩

/-- What a report says of a run is what the turns have led to. -/
structure Report.Describes (r : Report) (matched : Nat) (s : Store) : Prop where
  matched : r.matched = matched
  entries : r.entries = s.size
  bytes : r.bytes = s.bytesUsed.toNat
  allocations : r.allocations = s.memory.arena.liveCount

theorem Report.Describes.of_alike {r : Report} (h : r.Describes matched s) (hs : s.Alike s') :
    r.Describes matched s' := by
  refine ⟨h.matched, ?_, ?_, ?_⟩
  · rw [hs.items, h.entries]
  · rw [hs.bytes, h.bytes]
  · rw [hs.live, h.allocations]

theorem run_ok {clock : Clock} (hnew : newStore clock = .ok s) (hthreads : o.threads ≤ maxThreads)
    (hcount : o.ops * o.threads < wordLimit) (hrun : runWorkers o o.threads 0 0 s = .ok matched s') :
    ∃ r, run o clock = .ok r ∧ r.Describes matched s' := by
  have hreport : run o clock = .ok ⟨o.ops * o.threads, s'.size, s'.bytesUsed.toNat, s'.segmentCount, matched,
      s'.counters.expired, s'.notifier.drain.delivered.size, s'.memory.arena.liveCount, s'.counters.rehash?⟩ := by
    simp only [run, hnew, bind, Except.bind, if_neg (Nat.not_lt_of_le hthreads), hrun, if_neg (Nat.not_le_of_lt hcount)]
    rfl
  exact ⟨_, hreport, rfl, rfl, rfl, rfl⟩

/-- While entries last for ever, the workers may take turns in any order, the sweeper may come and time may pass: the
    steps succeed and the figures are those of the report. -/
theorem report_describes (clock : Clock) (hforever : o.ttlMillis = 0) (hthreads : o.threads ≤ maxThreads)
    (hcount : o.ops * o.threads < wordLimit) : ∃ r s₀, run o clock = .ok r ∧ newStore clock = .ok s₀ ∧
      ∀ turns, Complete o turns → ∃ matched s, takeTurns o turns 0 s₀ = .ok matched s ∧ r.Describes matched s := by
  obtain ⟨s₀, hnew, hschema, f, hs₀⟩ := newStore_ok clock
  have htake {turns : Schedule Nat Nat} (hc : Complete o turns) :=
    takeTurns_ok hforever hthreads hs₀ hschema (fun _ => hc.lt_threads) 0
  have hfirst := complete_oneByOne o
  have hrun := (congrFun (runWorkers_eq o o.threads 0 0) s₀).trans (htake hfirst)
  obtain ⟨r, hr, hdescribes⟩ := run_ok hnew hthreads hcount hrun
  refine ⟨r, s₀, hr, hnew, fun turns hc => ⟨_, _, htake hc, ?_⟩⟩
  obtain ⟨htold, halike⟩ := hs₀.commute (hfirst.reorders hc hthreads hs₀ hschema)
  have hmatches : matchesOf o.threads (errands o turns) s₀ =
      matchesOf o.threads (errands o (oneByOne o 0 o.threads)) s₀ :=
    Finset.sum_congr rfl fun w _ => by rw [htold w]
  rw [hmatches]
  exact hdescribes.of_alike halike

/-- Parties with different keys may take turns in any order at a store without limits whose entries last for ever: each
    is told what it is told in any other order, say when one party follows the other, and what is stored in the end is
    the same. The workers of the stress run are such parties, so that its figures tell nothing of their turns. -/
theorem indifferent_to_order :
    (∀ {schema : Schema} {config : StoreConfig} {memory : Memory} {notifier : Notifier} {clock : Clock}
        {draw : Nat → Nat} {before : List Store.Request} {s₀ s : Store} {ι : Type} [DecidableEq ι] {K : ι → Set Value}
        {S S' : Schedule ι Errand},
      Store.create schema config memory notifier clock draw = .ok s₀ →
      config.maxItems? = none ∧ config.maxBytes? = none → memory.arena.limit? = none → memory.arena.Sound →
      (∀ h, memory.arena.block? h = none) → memory.faults = .never → notifier.Calm →
      (∀ q ∈ before, q.Fits schema) → s = (Store.run before s₀).2 → (∀ r ∈ s.records, r.ttl = Lifetime.forever) →
      Store.Reorders K S S' s → (∀ i, told i S' s = told i S s) ∧ Store.Alike (after S s) (after S' s)) ∧
    (∀ worker n worker' n', keyOf worker n = keyOf worker' n' ↔ worker = worker' ∧ n = n') ∧
    ∀ (o : Options) (clock : Clock), o.ttlMillis = 0 → o.threads ≤ maxThreads → o.ops * o.threads < wordLimit →
      ∃ r s₀, run o clock = .ok r ∧ newStore clock = .ok s₀ ∧ ∀ turns, Complete o turns →
        ∃ matched s, takeTurns o turns 0 s₀ = .ok matched s ∧ r.Describes matched s := by
  refine ⟨?_, fun worker n worker' n' => keyOf_inj, fun o clock => report_describes clock⟩
  intro schema config memory notifier clock draw before s₀ s ι _ K S S' hcreate hunlimited hlimit hsound hunused hfaults
    hcalm hfits hs hlasting hreorders
  subst hs
  obtain ⟨⟨f, hstocks⟩, -⟩ :=
    Store.stocks_of_run hcreate hunlimited hlimit hsound hunused hfaults hcalm hfits hlasting
  exact hstocks.commute hreorders

/-- In a table of two slots two parties put an entry each, while time passes and the sweeper comes; then one matches its
    own and the other removes its own. Two workers with a step each take turns with the last one first. -/
theorem indifferent_of_two :
    (∃ s, Store.createPlain ⟨"Entry", []⟩ { minSegments := 1, maxSegments := 1, segmentCapacity := 2 } ⟨0⟩
        (Placement.evenly 1 1) = .ok s ∧
      let S : Schedule Bool Errand := [.act (true, .put [1, 0, 1, 1]), .tick 9, .act (false, .put [1, 0, 1, 0]), .sweep,
        .act (true, .matching (.bool true)), .act (false, .remove (.bool false))]
      let S' : Schedule Bool Errand := [.act (true, .put [1, 0, 1, 1]), .act (true, .matching (.bool true)),
        .act (false, .put [1, 0, 1, 0]), .act (false, .remove (.bool false))]
      (∀ i, told i S' s = told i S s) ∧ Store.Alike (after S s) (after S' s)) ∧
    ∃ r s₀ matched s, run { threads := 2, ops := 1, keys := 1 } ⟨0⟩ = .ok r ∧ newStore ⟨0⟩ = .ok s₀ ∧
      takeTurns { threads := 2, ops := 1, keys := 1 } [.act (1, 0), .tick 9, .act (0, 0), .sweep] 0 s₀ = .ok matched s ∧
        r.Describes matched s := by
  obtain ⟨hgeneral, -, hstress⟩ := indifferent_to_order
  constructor
  · have hmade : Store.create ⟨"Entry", []⟩ { minSegments := 1, maxSegments := 1, segmentCapacity := 2 } .empty
        (.silent "Entry") ⟨0⟩ (Placement.evenly 1 1) = .ok (Store.made _ _ _ _ _ _) := rfl
    have hnone : ∀ r ∈ (Store.made ⟨"Entry", []⟩ { minSegments := 1, maxSegments := 1, segmentCapacity := 2 } .empty
        (.silent "Entry") ⟨0⟩ (Placement.evenly 1 1)).records, r.ttl = Lifetime.forever := fun r hr => by
      rw [Store.records_made] at hr
      cases hr
    have hshort {payload : Bytes} (hlength : payload.length = 4) (s : Store) : (Errand.put payload).Bearable s := by
      rintro _ ⟨rfl, -⟩
      exact Or.inl (Nat.lt_of_le_of_lt hlength.le (by decide))
    have hkey {q q₁ q₂ : Errand} {k k' : Value} (hq : q ∈ [q₁, q₂]) (hk : q.key? ⟨"Entry", []⟩ = some k)
        (h₁ : q₁.key? ⟨"Entry", []⟩ = some k') (h₂ : q₂.key? ⟨"Entry", []⟩ = some k') : k = k' := by
      rcases List.mem_pair.mp hq with rfl | rfl
      · exact Option.some.inj (hk.symm.trans h₁)
      · exact Option.some.inj (hk.symm.trans h₂)
    refine ⟨_, hmade, hgeneral (K := fun i => {.bool i}) hmade ⟨rfl, rfl⟩ rfl (Arena.sound_empty none)
      (Arena.block?_empty none) rfl (Notifier.calm_silent "Entry") (fun q (hq : q ∈ []) => by cases hq) rfl hnone ?_⟩
    refine ⟨?_, ?_, ?_, ?_⟩
    · rintro i j k rfl hk
      exact Value.bool.inj (Set.mem_singleton_iff.mp hk)
    · rintro (_ | _) q hq k hk
      · exact hkey hq hk rfl rfl
      · exact hkey hq hk rfl rfl
    · rintro (_ | _)
      · exact ⟨hshort rfl _, fun payload hoffers => hoffers.elim, trivial⟩
      · exact ⟨hshort rfl _, fun payload hoffers => hoffers.elim, trivial⟩
    · rintro (_ | _)
      · rfl
      · rfl
  · obtain ⟨r, s₀, hr, hnew, hturns⟩ := hstress { threads := 2, ops := 1, keys := 1 } ⟨0⟩ rfl (by decide) (by decide)
    obtain ⟨matched, s, htake, hdescribes⟩ := hturns [.act (1, 0), .tick 9, .act (0, 0), .sweep] fun
      | 0 => rfl
      | 1 => rfl
      | worker + 2 => rfl
    exact ⟨r, s₀, matched, s, hr, hnew, htake, hdescribes⟩

/-! ### What torn entries can do to others -/

/-- A payload that is too long to be written, under the key of a short one. -/
@[irreducible] def overlong : Bytes := [1, 0, 1, 1] ++ List.replicate Record.lengthLimit 0

theorem key_overlong : Payload.key overlong = .ok (.bool true) := by
  unfold overlong
  rfl

theorem length_overlong : overlong.length = 4 + Record.lengthLimit := by
  unfold overlong
  rw [List.length_append, List.length_replicate]
  rfl

/-- The only entry has a short payload. -/
@[irreducible] def lone : Store := (Store.answer (.put [1, 0, 1, 1] Lifetime.forever) Store.fourSlots).2

theorem wellFormed_lone : lone.WellFormed := by
  have hmade : Store.fourSlots.WellFormed := Store.wellFormed_made rfl ⟨rfl, rfl, rfl⟩ (Arena.sound_empty none)
  have hfits : (Store.Request.put [1, 0, 1, 1] Lifetime.forever).Fits Store.fourSlots.schema :=
    show 4 < Record.lengthLimit by decide
  obtain ⟨clock, rs, hleads⟩ := Store.answer_leads hmade hfits
  unfold lone
  exact hleads.wellFormed

/-- The overlong payload is refused, but the block of the short one is gone. So a key with the same home is not found
    to be absent. -/
theorem contains_after_overlong :
    (Store.answer (.contains (.bool false)) (Store.answer (.put overlong Lifetime.forever) lone).2).1 =
      .failed (.error (.invalidHandle ⟨1⟩)) := by
  have hstored : ⟨[1, 0, 1, 1], 0, Lifetime.forever, ⟨1⟩⟩ ∈ lone.records := by decide +kernel
  have hblock : (lone.memory.arena.block? ⟨1⟩).map (·.capacity) = some 32 := by decide +kernel
  have hroute : Placement.route? lone.slots (.bool false) = some 0 := by decide +kernel
  have hhome : (lone.segment? 0).bind (fun g => g.slot? ((Value.bool false).home g.capacity)) = some ⟨1⟩ := by
    decide +kernel
  obtain ⟨b, hb, hcapacity⟩ := Option.map_eq_some_iff.mp hblock
  obtain ⟨g, hi, hhome⟩ := Option.bind_eq_some_iff.mp hhome
  have hsize : Record.sizeFor overlong.length = 4294967316 := by rw [length_overlong]; rfl
  obtain ⟨s, hput, hslots, hlegible, hdead⟩ := Store.put_over_too_long wellFormed_lone (by decide +kernel)
    Lifetime.forever hstored rfl key_overlong hb (by rw [hcapacity, hsize]; decide) (by rw [hsize]; decide)
    (by rw [length_overlong]; exact Nat.le_add_left _ _)
  rw [show (Store.answer (.put overlong Lifetime.forever) lone).2 = s from
    congrArg Prod.snd (Store.respond_error hput)]
  refine Store.contains_dead hlegible (hslots ▸ hroute) ?_ hhome hdead
  rw [Store.segment?, hslots]
  exact hi

/-- An overlong payload is put over a short one, and then another key cannot be looked up any more. Where an entry was
    torn before, of two new keys the one is stored that comes first. -/
theorem not_indifferent_to_torn_entries :
    (let S : Schedule Bool Errand :=
        [.act (true, .put [1, 0, 1, 1]), .act (true, .put overlong), .act (false, .contains (.bool false))]
      let S' : Schedule Bool Errand :=
        [.act (false, .contains (.bool false)), .act (true, .put [1, 0, 1, 1]), .act (true, .put overlong)]
      (∀ i, own i S' = own i S) ∧ Store.fourSlots.Unlimited ∧
        told false S Store.fourSlots = [.failed (.error (.invalidHandle ⟨1⟩))] ∧
        told false S' Store.fourSlots = [.flag false]) ∧
    let S : Schedule Bool Errand := [.act (true, .put [1, 0, 2, 7, 0, 0, 0, 0, 0, 0, 0]),
      .act (false, .put [1, 0, 2, 10, 0, 0, 0, 0, 0, 0, 0])]
    let S' : Schedule Bool Errand := [.act (false, .put [1, 0, 2, 10, 0, 0, 0, 0, 0, 0, 0]),
      .act (true, .put [1, 0, 2, 7, 0, 0, 0, 0, 0, 0, 0])]
    (∀ i, own i S' = own i S) ∧ Store.torn.Unlimited ∧ told true S Store.torn = [.number 0] ∧
      told true S' Store.torn = [.failed (.error (.invalidHandle ⟨1⟩))] := by
  refine ⟨⟨?_, by decide +kernel, ?_, by decide +kernel⟩, ?_, by decide +kernel, by decide +kernel, by decide +kernel⟩
  · rintro (_ | _)
    · rfl
    · rfl
  · have htold := contains_after_overlong
    unfold lone at htold
    exact congrArg (fun response => [response]) htold
  · rintro (_ | _)
    · rfl
    · rfl

end RecordStore.Stress
