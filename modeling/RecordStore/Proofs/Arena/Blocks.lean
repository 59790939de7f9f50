import Mathlib.Algebra.BigOperators.Group.Finset.Basic
import Mathlib.Algebra.Order.BigOperators.Group.Finset
import Mathlib.Algebra.Ring.Nat
import RecordStore.Memory.Arena

/-! # What an arena holds

An arena is seen through the live block of each handle. Every operation changes the block of one handle, or takes
one away and gives its bytes to a new handle, and leaves the others as they are. The counters of a sound arena
agree with its live blocks. -/

namespace RecordStore

theorem Handle.eq_iff {h h' : Handle} : h = h' ↔ h.number = h'.number := by
  cases h
  cases h'
  simp

namespace Arena

variable {a : Arena} {h h' : Handle} {b : Block} {b? : Option Block}

theorem number_lt_of_block? (hb : a.block? h = some b) : h.number < a.blocks.size := by
  unfold block? at hb
  by_contra hge
  rw [Array.getElem?_eq_none (by omega)] at hb
  cases hb

theorem block?_replace (hb : a.block? h = some b) :
    (a.replace h b?).block? h' = if h' = h then b? else a.block? h' := by
  have hlt := number_lt_of_block? hb
  unfold block? replace
  rw [Array.getElem?_setIfInBounds]
  by_cases e : h' = h
  · rw [if_pos e, if_pos (e ▸ rfl), if_pos hlt, Option.join_some]
  · rw [if_neg e, if_neg fun en => e (Handle.eq_iff.mpr en.symm)]

theorem block?_append : (a.append b?).block? h = if h = a.nextHandle then b? else a.block? h := by
  unfold block? append nextHandle
  rw [Array.getElem?_push]
  by_cases e : h = ⟨a.blocks.size⟩
  · rw [if_pos e, if_pos (e ▸ rfl), Option.join_some]
  · rw [if_neg e, if_neg fun en => e (Handle.eq_iff.mpr en)]

@[simp] theorem block?_nextHandle : a.block? a.nextHandle = none := by
  simp [block?, nextHandle]

/-! ### Sums over the live blocks -/

/-- The sum of a measure over the live blocks. -/
def total (a : Arena) (f : Block → Nat) : Nat :=
  ∑ i ∈ Finset.range a.blocks.size, ((a.block? ⟨i⟩).map f).getD 0

theorem total_replace (b? : Option Block) (hb : a.block? h = some b) (f : Block → Nat) :
    (a.replace h b?).total f + f b = a.total f + (b?.map f).getD 0 := by
  have hmem : h.number ∈ Finset.range a.blocks.size := Finset.mem_range.mpr (number_lt_of_block? hb)
  have hsize : (a.replace h b?).blocks.size = a.blocks.size := by simp [replace]
  have hrest : ∑ i ∈ (Finset.range a.blocks.size).erase h.number, (((a.replace h b?).block? ⟨i⟩).map f).getD 0 =
      ∑ i ∈ (Finset.range a.blocks.size).erase h.number, ((a.block? ⟨i⟩).map f).getD 0 := by
    refine Finset.sum_congr rfl fun i hi => ?_
    have hne : (⟨i⟩ : Handle) ≠ h := fun e => (Finset.mem_erase.mp hi).1 (by rw [← e])
    rw [block?_replace hb, if_neg hne]
  unfold total
  rw [hsize, ← Finset.add_sum_erase _ _ hmem, ← Finset.add_sum_erase _ _ hmem, hrest, block?_replace hb,
    if_pos rfl, hb, Option.map_some, Option.getD_some]
  omega

theorem total_append (f : Block → Nat) : (a.append b?).total f = a.total f + (b?.map f).getD 0 := by
  have hsize : (a.append b?).blocks.size = a.blocks.size + 1 := by simp [append]
  have hrest : ∑ i ∈ Finset.range a.blocks.size, (((a.append b?).block? ⟨i⟩).map f).getD 0 =
      ∑ i ∈ Finset.range a.blocks.size, ((a.block? ⟨i⟩).map f).getD 0 := by
    refine Finset.sum_congr rfl fun i hi => ?_
    have hne : (⟨i⟩ : Handle) ≠ a.nextHandle := fun e => by
      have := Finset.mem_range.mp hi
      have : i = a.blocks.size := congrArg Handle.number e
      omega
    rw [block?_append, if_neg hne]
  unfold total
  rw [hsize, Finset.sum_range_succ, hrest]
  congr 1
  show ((((a.append b?).block? a.nextHandle).map f).getD 0) = _
  rw [block?_append, if_pos rfl]

theorem liveCount_eq_total : a.liveCount = a.total fun _ => 1 := by
  unfold liveCount total block?
  have key : ∀ l : List (Option Block), l.countP (·.isSome) =
      ∑ i ∈ Finset.range l.length, ((l[i]?.join).map fun _ => 1).getD 0 := by
    intro l
    induction l with
    | nil => rfl
    | cons b? l ih =>
      rw [List.length_cons, Finset.sum_range_succ', List.countP_cons, ih]
      cases b? <;> simp
  rw [key]
  simp

/-- A measure over the live blocks is summed by going through the handles of all of them, each once. -/
theorem total_eq_sum {hs : List Handle} (nodup : hs.Nodup) (all : ∀ h, h ∈ hs ↔ (a.block? h).isSome)
    (f : Block → Nat) : a.total f = (hs.map fun h => ((a.block? h).map f).getD 0).sum := by
  have hinj : Function.Injective Handle.number := fun _ _ e => Handle.eq_iff.mpr e
  have hnum : (hs.map Handle.number).Nodup := nodup.map hinj
  have hsub : (hs.map Handle.number).toFinset ⊆ Finset.range a.blocks.size := by
    intro i hi
    obtain ⟨h, hh, rfl⟩ := List.mem_map.mp (List.mem_toFinset.mp hi)
    obtain ⟨b, hb⟩ := Option.isSome_iff_exists.mp ((all h).mp hh)
    exact Finset.mem_range.mpr (number_lt_of_block? hb)
  unfold total
  rw [← Finset.sum_subset hsub, List.sum_toFinset _ hnum, List.map_map]
  · rfl
  · intro i _ hi
    have hdead : a.block? ⟨i⟩ = none := by
      cases hb : a.block? ⟨i⟩ with
      | none => rfl
      | some b =>
        have : (⟨i⟩ : Handle) ∈ hs := (all _).mpr (by rw [hb]; rfl)
        exact absurd (List.mem_toFinset.mpr (List.mem_map.mpr ⟨_, this, rfl⟩)) hi
    rw [hdead]
    rfl

theorem liveCount_eq_length {hs : List Handle} (nodup : hs.Nodup) (all : ∀ h, h ∈ hs ↔ (a.block? h).isSome) :
    a.liveCount = hs.length := by
  have hone : ∀ h ∈ hs, ((a.block? h).map fun _ => 1).getD 0 = 1 := by
    intro h hh
    obtain ⟨b, hb⟩ := Option.isSome_iff_exists.mp ((all h).mp hh)
    rw [hb]
    rfl
  rw [liveCount_eq_total, total_eq_sum nodup all, List.map_congr_left hone, List.map_const', List.sum_replicate_nat,
    Nat.mul_one]

theorem exists_handles (a : Arena) : ∃ hs : List Handle, hs.Nodup ∧ ∀ h, h ∈ hs ↔ (a.block? h).isSome := by
  have hinj : Function.Injective Handle.mk := fun _ _ e => Handle.mk.inj e
  refine ⟨((List.range a.blocks.size).map Handle.mk).filter fun h => (a.block? h).isSome,
    (List.nodup_range.map hinj).filter _, fun h => ?_⟩
  rw [List.mem_filter, List.mem_map, and_iff_right_iff_imp]
  intro hlive
  obtain ⟨b, hb⟩ := Option.isSome_iff_exists.mp hlive
  exact ⟨h.number, List.mem_range.mpr (number_lt_of_block? hb), rfl⟩

/-- A block that gets another handle is one still. -/
theorem liveCount_moved {a' : Arena} {b' : Block} (hb : a.block? h = some b) (hh : h' = h ∨ a.block? h' = none)
    (hview : a'.block? = Function.update (Function.update a.block? h none) h' (some b')) :
    a'.liveCount = a.liveCount := by
  obtain ⟨hs, hnodup, hall⟩ := exists_handles a
  have hmem : h ∈ hs := (hall h).mpr (by rw [hb]; rfl)
  have hnot : h' ∉ hs.erase h := by
    intro hh'
    obtain ⟨hne, hmem'⟩ := hnodup.mem_erase_iff.mp hh'
    rcases hh with rfl | hdead
    · exact hne rfl
    · rw [hall, hdead] at hmem'
      cases hmem'
  have hall' : ∀ g, g ∈ h' :: hs.erase h ↔ (a'.block? g).isSome := by
    intro g
    rw [List.mem_cons, hnodup.mem_erase_iff, hall, hview]
    by_cases hg : g = h'
    · subst hg
      simp
    · by_cases hgh : g = h
      · subst hgh
        simp [hg]
      · simp [hg, hgh]
  rw [liveCount_eq_length (List.nodup_cons.mpr ⟨hnot, hnodup.erase h⟩) hall', liveCount_eq_length hnodup hall,
    List.length_cons, List.length_erase_of_mem hmem]
  have := List.length_pos_of_mem hmem
  omega

/-! ### What an operation does -/

/-- The counters of an arena agree with its live blocks, and the null handle names none of them. -/
structure Sound (a : Arena) : Prop where
  started : 0 < a.blocks.size
  null : a.block? .null = none
  /-- No block has outgrown its room. -/
  room : ∀ {h b}, a.block? h = some b → b.size ≤ b.capacity
  bytes : a.allocatedBytes = UInt64.ofNat (a.total Block.size)
  balance : a.allocations = a.releases + a.liveCount

theorem block?_empty (limit? : Option Nat) (h : Handle) : (empty limit?).block? h = none := by
  rcases h with ⟨_ | n⟩ <;> rfl

theorem sound_empty (limit? : Option Nat) : (empty limit?).Sound where
  started := Nat.one_pos
  null := rfl
  room {h b} hb := by
    rw [block?_empty] at hb
    cases hb
  bytes := rfl
  balance := rfl

/-- From `a` to `a'` the live blocks change to those of `view`. The limit stays, and so does the agreement of the
    counters. -/
structure Becomes (a a' : Arena) (view : Handle → Option Block) : Prop where
  block? : a'.block? = view
  limit? : a'.limit? = a.limit?
  sound : a.Sound → a'.Sound

theorem Becomes.refl (a : Arena) : Becomes a a a.block? := ⟨rfl, rfl, id⟩

theorem Becomes.same (hb : a.block? h = some b) : Becomes a a (Function.update a.block? h (some b)) := by
  rw [← hb, Function.update_eq_self]
  exact Becomes.refl a

theorem Becomes.trans {a a' a'' : Arena} {view view' : Handle → Option Block} (h₁ : Becomes a a' view)
    (h₂ : Becomes a' a'' view') : Becomes a a'' view' where
  block? := h₂.block?
  limit? := h₂.limit?.trans h₁.limit?
  sound h := h₂.sound (h₁.sound h)

theorem update_null (ha : a.Sound) (hb : a.block? h = some b) : Function.update a.block? h b? .null = none := by
  rw [Function.update_of_ne, ha.null]
  rintro rfl
  rw [ha.null] at hb
  cases hb

theorem block?_replace_eq (hb : a.block? h = some b) :
    (a.replace h b?).block? = Function.update a.block? h b? := by
  funext h'
  rw [block?_replace hb, Function.update_apply]

theorem block?_append_eq : (a.append b?).block? = Function.update a.block? a.nextHandle b? := by
  funext h'
  rw [block?_append, Function.update_apply]

theorem liveCount_replace (b? : Option Block) (hb : a.block? h = some b) :
    (a.replace h b?).liveCount + 1 = a.liveCount + (b?.map fun _ => 1).getD 0 := by
  rw [liveCount_eq_total, liveCount_eq_total]
  exact total_replace b? hb _

theorem liveCount_append : (a.append b?).liveCount = a.liveCount + (b?.map fun _ => 1).getD 0 := by
  rw [liveCount_eq_total, liveCount_eq_total]
  exact total_append _

theorem room_update {h : Handle} {b? : Option Block} (ha : a.Sound) (hroom : ∀ b, b? = some b → b.size ≤ b.capacity)
    {h' : Handle} {b : Block} (hb : Function.update a.block? h b? h' = some b) : b.size ≤ b.capacity := by
  rw [Function.update_apply] at hb
  split at hb
  · exact hroom b hb
  · exact ha.room hb

theorem becomes_replace {b' : Block} (bytes : UInt64) (hb : a.block? h = some b)
    (hroom : b.size ≤ b.capacity → b'.size ≤ b'.capacity)
    (hbytes : bytes + UInt64.ofNat b.size = a.allocatedBytes + UInt64.ofNat b'.size) :
    Becomes a { a.replace h (some b') with allocatedBytes := bytes } (Function.update a.block? h (some b')) where
  block? := block?_replace_eq hb
  limit? := rfl
  sound ha := by
    have htotal := congrArg UInt64.ofNat (total_replace (some b') hb Block.size)
    have hcount := liveCount_replace (some b') hb
    rw [UInt64.ofNat_add, UInt64.ofNat_add, ← ha.bytes, Option.map_some, Option.getD_some, ← hbytes] at htotal
    rw [Option.map_some, Option.getD_some] at hcount
    refine ⟨by simpa [replace] using ha.started, ?_, ?_, ((UInt64.add_left_inj _).mp htotal).symm, ?_⟩
    · show (a.replace h (some b')).block? .null = none
      rw [block?_replace_eq hb]
      exact update_null ha hb
    · exact fun {h' _} hb' => room_update ha (fun _ e => by cases e; exact hroom (ha.room hb))
        ((congrFun (block?_replace_eq hb) h').symm.trans hb')
    · show a.allocations = a.releases + (a.replace h (some b')).liveCount
      rw [ha.balance]
      omega

theorem becomes_release (hb : a.block? h = some b) :
    Becomes a { (a.replace h none).unreserve b.size with releases := a.releases + 1 }
      (Function.update a.block? h none) where
  block? := block?_replace_eq hb
  limit? := rfl
  sound ha := by
    have htotal := congrArg UInt64.ofNat (total_replace none hb Block.size)
    have hcount := liveCount_replace none hb
    rw [UInt64.ofNat_add, UInt64.ofNat_add, ← ha.bytes] at htotal
    rw [Option.map_none, Option.getD_none] at hcount
    refine ⟨by simpa [replace, unreserve] using ha.started, ?_, ?_, ?_, ?_⟩
    · show (a.replace h none).block? .null = none
      rw [block?_replace_eq hb]
      exact update_null ha hb
    · exact fun {h' _} hb' => room_update ha (fun _ e => by cases e)
        ((congrFun (block?_replace_eq hb) h').symm.trans hb')
    · show a.allocatedBytes - UInt64.ofNat b.size = UInt64.ofNat ((a.replace h none).total Block.size)
      rw [UInt64.sub_eq_iff_eq_add]
      simpa using htotal.symm
    · show a.allocations = a.releases + 1 + (a.replace h none).liveCount
      rw [ha.balance]
      omega

theorem becomes_append (bytes : UInt64) (hroom : b.size ≤ b.capacity) (hbytes : bytes = a.allocatedBytes + UInt64.ofNat b.size) :
    Becomes a { a.append (some b) with allocatedBytes := bytes, allocations := a.allocations + 1 }
      (Function.update a.block? a.nextHandle (some b)) where
  block? := block?_append_eq
  limit? := rfl
  sound ha := by
    refine ⟨by simp [append], ?_, ?_, ?_, ?_⟩
    · show (a.append (some b)).block? .null = none
      rw [block?_append, if_neg, ha.null]
      intro e
      have hstarted := ha.started
      have : 0 = a.blocks.size := congrArg Handle.number e
      omega
    · exact fun {h' _} hb' => room_update ha (fun _ e => by cases e; exact hroom)
        ((congrFun block?_append_eq h').symm.trans hb')
    · show bytes = UInt64.ofNat ((a.append (some b)).total Block.size)
      rw [hbytes, ha.bytes, total_append, UInt64.ofNat_add, Option.map_some, Option.getD_some]
    · show a.allocations + 1 = a.releases + (a.append (some b)).liveCount
      rw [ha.balance, liveCount_append, Option.map_some, Option.getD_some]
      omega

end Arena

end RecordStore
