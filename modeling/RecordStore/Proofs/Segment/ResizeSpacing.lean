import RecordStore.Proofs.Segment.CapacityAndCount
import RecordStore.Proofs.Segment.Edits

/-! # Growing and shrinking in time

In every state that a segment can come to the number of its slots follows the number of its entries, and it does not
change to and fro: between two resizes entries come or go, an eighth of the slots at least. -/

namespace RecordStore.Segment

open RecordStore.Action

variable {t u : State} {e : Edit} {es : List Edit}

/-! ### One edit -/

theorem State.WellFormed.count_pos {r : Record} {rs : Multiset Record} (ht : t.WellFormed) (hr : t.records = r ::ₘ rs) :
    0 < t.segment.level.count := by
  have hcard := ht.table.card_records
  show 0 < t.segment.count
  rw [← hcard]
  show 0 < t.records.card
  rw [hr, Multiset.card_cons]
  exact Nat.succ_pos _

/-- Whatever is done to the entry of one key moves the table by one step at most. -/
theorem Edit.step (ht : t.WellFormed) (hne : e ≠ .destroy) : t.segment.level.Step (e.run t).segment.level := by
  cases e with
  | put key r => exact step_put t key r
  | remove key =>
    rcases ht.probe_cases key with ⟨i, h, r, hprobe, hi, hr, hk⟩ | ⟨i, hprobe, -⟩
    · obtain ⟨u, hrun, -⟩ := removeAt_ok ht hi hr hk
      have hremove : Segment.remove key t = .ok r.size u := by
        simp only [Segment.remove, bind_ok hprobe, bind_ok hrun, pure_run]
      rw [show (Edit.remove key).run t = u from final_ok hremove, (level_removeAt t i h).ok hrun]
      exact .removed (ht.count_pos (ht.records_eq hi hr hk).1)
    · have hremove : Segment.remove key t = .ok 0 t := by simp only [Segment.remove, bind_ok hprobe, pure_run]
      rw [show (Edit.remove key).run t = t from final_ok hremove]
      exact .idle
  | evict key =>
    rcases evict_cases ht key with ⟨r, u, hall, -, -, ⟨i, h, hrun⟩, -, -, hevict⟩ | ⟨-, hevict⟩
    · have htell : Moves Levelled (do onNotifier (Notifier.notify ⟨r.payload, r.ttl⟩); return true : Op Bool) :=
        (levelled_onNotifier _).bind fun _ => Moves.pure _
      have hsame : ((Edit.evict key).run t).segment.level = u.segment.level := by
        show (final (Segment.evict key) t).segment.level = _
        rw [final, hevict]
        exact htell _
      rw [hsame, (level_removeAt t i h).ok hrun]
      exact .removed (ht.count_pos hall)
    · rw [show (Edit.evict key).run t = t from final_ok hevict]
      exact .idle
  | destroy => exact absurd rfl hne
  | setClock wall => exact .idle

theorem level_destroy (ht : t.WellFormed) :
    (Edit.destroy.run t).segment.level = ⟨t.segment.minCapacity, 0, t.segment.minCapacity⟩ := by
  obtain ⟨u, hrun, -, hempty⟩ := destroy_ok ht
  rw [show Edit.destroy.run t = u from final_ok hrun, hempty]
  show (⟨(Array.replicate t.segment.minCapacity (none : Option Handle)).size, 0, t.segment.minCapacity⟩ : Level) = _
  rw [Array.size_replicate]

theorem Level.sound_empty {n : Nat} (hn : isCapacity n = true) : Level.Sound ⟨n, 0, n⟩ := by
  simp only [isCapacity, isPowerOfTwo, Bool.and_eq_true, decide_eq_true_eq] at hn
  obtain ⟨htwo, -, hpow⟩ := hn
  refine ⟨⟨n.log2 - 1, ?_⟩, ⟨0, (Nat.mul_one n).symm⟩, Nat.zero_le _, Or.inl rfl⟩
  have hlog : n.log2 ≠ 0 := by
    intro hzero
    rw [hzero] at hpow
    have : n = 1 := hpow.symm
    omega
  show n = 2 ^ (n.log2 - 1 + 1)
  rw [Nat.sub_add_cancel (Nat.pos_of_ne_zero hlog)]
  exact hpow.symm

/-! ### Some edits -/

/-- The segment is well-formed, and its table is as large as its entries ask for. -/
structure State.Tempered (t : State) (floor : Nat) : Prop where
  wellFormed : t.WellFormed
  level : t.segment.level.Sound
  floor : t.segment.minCapacity = floor

variable {floor : Nat}

theorem State.Tempered.edit (ht : t.Tempered floor) (he : e.Admissible) : (e.run t).Tempered floor := by
  have hlevel : (e.run t).segment.level.Sound ∧ (e.run t).segment.minCapacity = floor := by
    by_cases hne : e = .destroy
    · have hempty := level_destroy ht.wellFormed
      rw [← ht.floor, hne]
      exact ⟨hempty ▸ Level.sound_empty ht.wellFormed.table.made, congrArg Level.floor hempty⟩
    · have hstep := Edit.step ht.wellFormed hne
      exact ⟨hstep.sound ht.level, hstep.floor.trans ht.floor⟩
  exact ⟨Edit.run_wellFormed ht.wellFormed he, hlevel.1, hlevel.2⟩

theorem State.Tempered.edits (ht : t.Tempered floor) (hadm : ∀ e ∈ es, e.Admissible) :
    (runEdits es t).Tempered floor := by
  induction es generalizing t with
  | nil => exact ht
  | cons e es ih =>
    exact ih (ht.edit (hadm e List.mem_cons_self)) fun e' he' => hadm e' (List.mem_cons_of_mem e he')

/-- How many of some edits let an entry come or go. -/
def changes : List Edit → State → Nat
  | [], _ => 0
  | e :: es, t => t.segment.level.change (e.run t).segment.level + changes es (e.run t)

/-- An edit other than a teardown changes the number of slots. -/
def Edit.Resizes (e : Edit) (t : State) : Prop := e ≠ .destroy ∧ (e.run t).segment.capacity ≠ t.segment.capacity

/-- Until the table is resized, as many entries come or go as there is slack. -/
theorem slack_le_changes (ht : t.Tempered floor) (hadm : ∀ e ∈ es, e.Admissible) (hnone : Edit.destroy ∉ es)
    (he : e.Resizes (runEdits es t)) : t.segment.level.slack ≤ changes (es ++ [e]) t := by
  induction es generalizing t with
  | nil => exact (Edit.step ht.wellFormed he.1).slack_le_change ht.level he.2
  | cons e₁ es ih =>
    have hne : e₁ ≠ .destroy := fun h => hnone (h ▸ List.mem_cons_self)
    have hstep := Edit.step ht.wellFormed hne
    rw [List.cons_append, changes]
    by_cases hsame : (e₁.run t).segment.capacity = t.segment.capacity
    · have hrest := ih (ht.edit (hadm e₁ List.mem_cons_self)) (fun e' he' => hadm e' (List.mem_cons_of_mem e₁ he'))
        (fun h => hnone (List.mem_cons_of_mem e₁ h)) he
      exact (hstep.slack_le hsame).trans (Nat.add_le_add_left hrest _)
    · exact (hstep.slack_le_change ht.level hsame).trans (Nat.le_add_right _ _)

/-! ### Runs -/

/-- Some edits of a segment that was made with `floor` slots let its size follow its content, without haste. -/
structure Temperate (t : State) (floor : Nat) (es : List Edit) : Prop where
  /-- In every state the table has at least `floor` slots, and not more than its entries ask for. -/
  bounded : ∀ done rest, es = done ++ rest → floor ≤ (runEdits done t).segment.capacity ∧
    (runEdits done t).segment.capacity ≤ max floor (max 4 (8 * (runEdits done t).segment.count))
  /-- After a resize, and unless the segment is torn down, an eighth as many entries as there are slots then come or go
      until the next resize is complete. The edit that this one belongs to counts. -/
  unhurried : ∀ before e between e' after, es = before ++ e :: between ++ e' :: after →
    e.Resizes (runEdits before t) → Edit.destroy ∉ between → e'.Resizes (runEdits (before ++ e :: between) t) →
    (runEdits (before ++ [e]) t).segment.capacity / 8 ≤ changes (between ++ [e']) (runEdits (before ++ [e]) t)

theorem State.Tempered.temperate (ht : t.Tempered floor) (hadm : ∀ e ∈ es, e.Admissible) : Temperate t floor es where
  bounded done rest hsplit := by
    have hdone : (runEdits done t).Tempered floor :=
      ht.edits fun e he => hadm e (hsplit ▸ List.mem_append_left rest he)
    have hle := hdone.level.floor_le
    have hge := hdone.level.capacity_le
    rw [show (runEdits done t).segment.level.floor = floor from hdone.floor] at hle hge
    exact ⟨hle, hge⟩
  unhurried before e between e' after hsplit hresizes hnone hresizes' := by
    subst hsplit
    have hbefore : (runEdits before t).Tempered floor := ht.edits fun e he => hadm e (by simp [he])
    have hone : runEdits (before ++ [e]) t = e.run (runEdits before t) := runEdits_append before [e] t
    have hall : runEdits (before ++ e :: between) t = runEdits between (e.run (runEdits before t)) :=
      runEdits_append before (e :: between) t
    rw [hall] at hresizes'
    rw [hone]
    have hslack := (Edit.step hbefore.wellFormed hresizes.1).slack_of_resize hbefore.level hresizes.2
    refine hslack.trans (slack_le_changes (hbefore.edit (hadm e (by simp))) (fun e he => hadm e ?_) hnone hresizes')
    simp [he]

theorem tempered_create (hs : create floor = .ok t.segment) (hsteady : t.memory.Steady) (hsound : t.memory.arena.Sound) :
    t.Tempered floor := by
  have hwell : t.WellFormed := wellFormed_create hs hsteady hsound
  obtain ⟨hcapacity, hempty⟩ := of_create hs
  refine ⟨hwell, ?_, hempty ▸ rfl⟩
  rw [hempty]
  show Level.Sound ⟨(Array.replicate floor (none : Option Handle)).size, 0, floor⟩
  rw [Array.size_replicate]
  exact Level.sound_empty hcapacity

/-- Whatever is asked of a segment, with whatever limits, clock and listener, and in a memory that runs out of room
    whenever it does: the run is a row of edits, and its table follows its content without haste. -/
theorem temperate_of_run (hs : create floor = .ok t.segment) (hsteady : t.memory.Steady) (hsound : t.memory.arena.Sound)
    (requests : List Request) (hadm : ∀ q ∈ requests, q.Admissible) :
    run requests t = runEdits (edits requests t) t ∧ Temperate t floor (edits requests t) := by
  have ht := tempered_create hs hsteady hsound
  exact ⟨(run_edits ht.wellFormed hadm).symm, ht.temperate fun e he => admissible_edits hadm he⟩

/-- A segment with two slots, in a memory that has room for two small records. -/
def narrow : State := ⟨⟨.withLimit (some 48), {}, .silent "", ⟨0⟩⟩, empty 2⟩

/-- Three small records are put. -/
def crowd : List Request :=
  [.put (.bool true) ⟨[1, 0, 1, 1], 0, 5, .null⟩, .put (.bool false) ⟨[1, 0, 1, 0], 0, 5, .null⟩,
    .put (.bytes []) ⟨Entity.encode [.bytes []], 0, 5, .null⟩]

/-- The table has grown twice, also for the record that there was no room for. -/
theorem temperate_of_crowd : create 2 = .ok narrow.segment ∧ (∀ q ∈ crowd, q.Admissible) ∧
    run crowd narrow = runEdits (edits crowd narrow) narrow ∧ Temperate narrow 2 (edits crowd narrow) ∧
    (run crowd narrow).segment.level = ⟨8, 2, 2⟩ := by
  have hadm : ∀ q ∈ crowd, q.Admissible := by
    intro q hq
    simp only [crowd, List.mem_cons, List.not_mem_nil, or_false] at hq
    rcases hq with rfl | rfl | rfl
    · exact ⟨by decide, by decide⟩
    · exact ⟨by decide, by decide⟩
    · exact ⟨by decide, by decide⟩
  have hmade : create 2 = .ok narrow.segment := rfl
  obtain ⟨hrun, htemperate⟩ := temperate_of_run hmade ⟨rfl, rfl, rfl⟩ (Arena.sound_empty (some 48)) crowd hadm
  exact ⟨rfl, hadm, hrun, htemperate, rfl⟩

end RecordStore.Segment
