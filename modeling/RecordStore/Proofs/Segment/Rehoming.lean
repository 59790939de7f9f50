import Mathlib.Data.Fintype.EquivFin
import RecordStore.Proofs.Segment.Gaps
import RecordStore.Proofs.Segment.LayingOut
import RecordStore.Proofs.Segment.Runs

/-! # New homes

A table that is laid out anew takes its handles in the order of their slots, and reads the key of each once more. If it
can read them all, then each handle lies in reach of its new home, in whatever order the table was before. If not, the
old table stays. Whether searches answer as before is another matter: they do just if the old table was in order. -/

namespace RecordStore.Segment

open RecordStore.Action

variable {t u v : State} {i j : Nat} {h : Handle} {k : Value} {keys : List Value} {slots : Slots}

/-! ### Placing what has been read -/

/-- Placing handles goes as far as reading their keys does, and leaves all of them in reach of their homes. -/
theorem placeAll_outcomes (hs : List Handle) (t : State) (slots : Slots)
    (hroom : hs.length + (held slots).card ≤ slots.size) (hr : Reached t.memory.arena.told? slots) :
    Yields (hs.mapM keyAt) t
      (fun keys u => Unwritten t u ∧ List.Forall₂ (fun h k => t.memory.arena.told? h = some k) hs keys ∧
        ∃ slots', placeAll hs slots t = .ok slots' u ∧ slots'.size = slots.size ∧
          held slots' = ↑hs + held slots ∧ Reached t.memory.arena.told? slots')
      fun e u => Unwritten t u ∧ placeAll hs slots t = .error e u := by
  induction hs generalizing t slots with
  | nil => exact ⟨refl t, .nil, slots, rfl, rfl, by simp, hr⟩
  | cons h hs ih =>
    rw [List.length_cons] at hroom
    rw [List.mapM_cons]
    have hfirst := keyAt_yields t h
    cases hrun : keyAt h t with
    | error e u => exact .of_error (bind_error hrun) ⟨(hfirst.error hrun).1, bind_error hrun⟩
    | ok k u =>
      obtain ⟨hu, htold⟩ := hfirst.ok hrun
      have hsame : u.memory.arena = t.memory.arena := by
        obtain ⟨m, hm, rfl⟩ := hu
        exact hm.arena
      obtain ⟨i, hilt, hi, hfree⟩ := exists_freeSlot?_of_card_lt k (show (held slots).card < slots.size by omega)
      have hheld := held_fill (x := h) hilt hfree
      have hrest := ih u (slots.setIfInBounds i (some h))
        (by
          rw [hheld, Multiset.card_cons, Array.size_setIfInBounds]
          omega)
        (by
          rw [hsame]
          exact Reached.fill hr hi htold)
      rw [hsame] at hrest
      have hplace : placeAll (h :: hs) slots t = placeAll hs (slots.setIfInBounds i (some h)) u := by
        simp only [placeAll, bind_ok hrun, hi]
      refine .of_eq (bind_ok hrun) (.bind (hrest.mono (fun keys w hw => ?_) fun e w hw => ?_))
      · obtain ⟨huw, hkeys, slots', hrun', hsize, hall, hreached⟩ := hw
        refine ⟨IsTrans.trans _ _ _ hu huw, .cons htold hkeys, slots', hplace.trans hrun', ?_, ?_, hreached⟩
        · rw [hsize, Array.size_setIfInBounds]
        · rw [hall, hheld, ← Multiset.cons_coe, Multiset.cons_add, Multiset.add_cons]
      · exact ⟨IsTrans.trans _ _ _ hu hw.1, hplace.trans hw.2⟩

/-! ### The table that is laid out anew -/

/-- What becomes of a table that is laid out anew, if `keys` are those of its handles in the order of the slots. -/
structure State.Rehomed (t : State) (keys : List Value) (capacity : Nat) (v : State) : Prop where
  /-- Nothing has changed but the slots and the plan of faults. In particular the count is the same. -/
  others : v = { t with memory := v.memory, segment := { t.segment with slots := v.segment.slots } }
  blocks : v.memory.arena = t.memory.arena
  sized : v.segment.capacity = capacity
  /-- The handles are there, each as often as before. -/
  handles : v.segment.handles.Perm t.segment.handles
  /-- Some steps lead from the home of a key round the table to its slot, and no empty slot lies on the way. -/
  reached : ∀ i h k, v.segment.slot? i = some h → (h, k) ∈ t.segment.handles.zip keys →
    ∃ steps, i = (k.home capacity + steps) % capacity ∧
      ∀ d < steps, (v.segment.slot? ((k.home capacity + d) % capacity)).isSome

theorem mem_zip_iff {key? : Handle → Option Value} {hs : List Handle}
    (hkeys : List.Forall₂ (fun h k => key? h = some k) hs keys) : (h, k) ∈ hs.zip keys ↔ h ∈ hs ∧ key? h = some k := by
  induction hkeys with
  | nil => simp
  | @cons g k' hs keys hg hkeys ih =>
    rw [List.zip_cons_cons, List.mem_cons, List.mem_cons, ih, Prod.mk.injEq]
    constructor
    · rintro (⟨rfl, rfl⟩ | ⟨hmem, hk⟩)
      · exact ⟨Or.inl rfl, hg⟩
      · exact ⟨Or.inr hmem, hk⟩
    · rintro ⟨rfl | hmem, hk⟩
      · rw [hg, Option.some.injEq] at hk
        exact Or.inl ⟨rfl, hk.symm⟩
      · exact Or.inr ⟨hmem, hk⟩

theorem exists_mem_zip {hs : List Handle} (hlength : hs.length = keys.length) (hk : k ∈ keys) :
    ∃ h, (h, k) ∈ hs.zip keys := by
  obtain ⟨n, hn, rfl⟩ := List.mem_iff_getElem.mp hk
  exact ⟨hs[n], List.mem_iff_getElem.mpr ⟨n, by rw [List.length_zip]; omega, List.getElem_zip⟩⟩

theorem rehomed_of_mapM {capacity : Nat} (hroom : t.segment.handles.length ≤ capacity)
    (hrun : t.segment.handles.mapM keyAt t = .ok keys u) :
    ∃ v, resize capacity t = .ok () v ∧ t.Rehomed keys capacity v := by
  obtain ⟨⟨m, hm, rfl⟩, hkeys, slots, hplace, hsize, hheld, hreached⟩ :=
    (placeAll_outcomes t.segment.handles t (Array.replicate capacity none)
      (by rwa [held_replicate, Multiset.card_zero, Array.size_replicate]) (reached_replicate capacity)).ok hrun
  rw [Array.size_replicate] at hsize
  rw [held_replicate, add_zero] at hheld
  refine ⟨{ t with memory := m, segment := { t.segment with slots } }, ?_, rfl, hm.arena, hsize,
    Multiset.coe_eq_coe.mp hheld, fun i h k hi hk => ?_⟩
  · have hcurrent : currentHandles t = .ok t.segment.handles t := rfl
    simp only [resize, bind_ok hcurrent, bind_ok hplace]
    rfl
  · have hsteps := (hreached hi ((mem_zip_iff hkeys).mp hk).2).steps (lt_of_occupant? hi)
    rwa [hsize] at hsteps

theorem resize_of_mapM {capacity : Nat} {e : Failure} (hroom : t.segment.handles.length ≤ capacity)
    (hrun : t.segment.handles.mapM keyAt t = .error e u) :
    resize capacity t = .error e u ∧ u.segment = t.segment ∧ u.memory.arena = t.memory.arena := by
  obtain ⟨⟨m, hm, rfl⟩, hplace⟩ :=
    (placeAll_outcomes t.segment.handles t (Array.replicate capacity none)
      (by rwa [held_replicate, Multiset.card_zero, Array.size_replicate]) (reached_replicate capacity)).error hrun
  have hcurrent : currentHandles t = .ok t.segment.handles t := rfl
  exact ⟨(bind_ok hcurrent).trans (bind_error hplace), rfl, hm.arena⟩

/-! ### What searches come to -/

/-- What a search for a key comes to: the handle with the key, none, or a failure. -/
def State.lookup (t : State) (k : Value) : Except Failure (Option Handle) :=
  match probe k t with
  | .ok (.found _ h) _ => .ok (some h)
  | .ok (.absent _) _ => .ok none
  | .error e _ => .error e

theorem lookup_found {key? : Handle → Option Value} (hread : Readable t.memory key?) (hc : Chained key? t.segment.slots)
    (hmem : h ∈ held t.segment.slots) (hk : key? h = some k) : t.lookup k = .ok (some h) := by
  obtain ⟨i, hi⟩ := mem_held.mp hmem
  rw [State.lookup, probe_found hread hc hi hk]

theorem lookup_absent {key? : Handle → Option Value} (hread : Readable t.memory key?) (hc : Chained key? t.segment.slots)
    (hfree : ∃ i < t.segment.slots.size, occupant? t.segment.slots i = none)
    (hnew : ∀ h ∈ held t.segment.slots, key? h ≠ some k) : t.lookup k = .ok none := by
  obtain ⟨f, hf, hnone⟩ := hfree
  obtain ⟨i, hi⟩ := exists_freeSlot? k hf hnone
  obtain ⟨hilt, -⟩ := (freeSlot?_eq_some_iff (size_pos_of_freeSlot? hi)).mp hi
  rw [State.lookup, probe_absent hread hc hi hilt hnew]

/-- A search that ends has met taken slots only on its way, and it ends where it should. -/
theorem ends_of_probeFrom {steps a : Nat} {r : Probe} (hm : t.memory.Legible) (ha : a < t.segment.slots.size)
    (hrun : probeFrom k steps a t = .ok r u) :
    ∃ i < t.segment.slots.size, Taken t.segment.slots a i ∧ Ends t.key? t.segment.slots k i r := by
  induction steps generalizing a with
  | zero => cases hrun
  | succ steps ih =>
    have hself : Taken t.segment.slots a a := fun j _ hlt => by
      rw [Cyclic.dist_self] at hlt
      omega
    cases hslot : occupant? t.segment.slots a with
    | none =>
      simp only [probeFrom, bind_ok (slotAt_ok hslot), pure_run] at hrun
      cases hrun
      exact ⟨a, ha, hself, rfl, hslot⟩
    | some h =>
      simp only [probeFrom, bind_ok (slotAt_ok hslot)] at hrun
      have hread := keyAt_yields t h
      cases hkey : keyAt h t with
      | error e w =>
        rw [bind_error hkey] at hrun
        cases hrun
      | ok k' w =>
        obtain rfl := (hread.ok hkey).1.same hm
        rw [bind_ok hkey] at hrun
        split at hrun
        · rename_i hsame
          cases hrun
          exact ⟨a, ha, hself, rfl, hslot, State.key?_eq_some_iff.mpr (hsame ▸ hkey)⟩
        · rename_i hother
          obtain ⟨i, hi, htaken, hend⟩ := ih (Cyclic.succ_mod_lt ha) hrun
          refine ⟨i, hi, fun j hj hlt => ?_, hend⟩
          by_cases haj : a = j
          · rw [← haj, hslot]
            rfl
          · have hai : a ≠ i := fun e => by
              rw [e, Cyclic.dist_self] at hlt
              omega
            rw [Cyclic.dist_succ ha hj haj, Cyclic.dist_succ ha hi hai] at hlt
            exact htaken j hj (by omega)

/-- A search that answers has gone from the home of its key to where it ended. -/
theorem ends_of_lookup {h? : Option Handle} (hm : t.memory.Legible) (hrun : t.lookup k = .ok h?) :
    ∃ i < t.segment.slots.size, Taken t.segment.slots (k.home t.segment.slots.size) i ∧
      occupant? t.segment.slots i = h? ∧ ∀ h ∈ h?, t.key? h = some k := by
  unfold State.lookup at hrun
  cases hprobe : probe k t with
  | error e u =>
    rw [hprobe] at hrun
    cases hrun
  | ok r u =>
    have hpos : 0 < t.segment.slots.size := by
      by_contra hzero
      rw [probe, capacity, Nat.eq_zero_of_not_pos hzero] at hprobe
      cases hprobe
    obtain ⟨i, hi, htaken, hend⟩ := ends_of_probeFrom hm (home_lt hpos) hprobe
    rw [hprobe] at hrun
    refine ⟨i, hi, htaken, ?_⟩
    cases r with
    | found j h =>
      cases hrun
      obtain ⟨-, hslot, hk⟩ := hend
      refine ⟨hslot, fun h' hh' => ?_⟩
      cases hh'
      exact hk
    | absent j =>
      cases hrun
      refine ⟨hend.2, fun h' hh' => ?_⟩
      cases hh'

/-- A handle that is there once lies in one slot. -/
theorem slot_eq_of_nodup (hnodup : (held slots).Nodup) (hi : occupant? slots i = some h)
    (hj : occupant? slots j = some h) : i = j := by
  by_contra hne
  rw [← held_clear hi, Multiset.nodup_cons] at hnodup
  refine hnodup.1 (mem_held.mpr ⟨j, ?_⟩)
  rw [occupant?_set_ne (lt_of_occupant? hi) (Ne.symm hne)]
  exact hj

/-- If every handle is found by its key, and some key is found missing, then the table is in order. -/
theorem unbroken_of_lookup (hm : t.memory.Legible) (hkeys : ∀ h ∈ held t.segment.slots, ∃ k, t.key? h = some k)
    (hnodup : (t.segment.handles.map t.key?).Nodup)
    (hfound : ∀ h k, h ∈ held t.segment.slots → t.key? h = some k → t.lookup k = .ok (some h))
    (hmissed : ∃ k, t.lookup k = .ok none) : t.Unbroken := by
  have honce : (held t.segment.slots).Nodup := Multiset.coe_nodup.mpr hnodup.of_map
  refine State.unbroken_of_chained ⟨fun {i h} hi => hkeys h (mem_held.mpr ⟨i, hi⟩), fun {i j h h'} hi hj he => ?_,
    fun {i h k} hi hk => ?_⟩ ?_
  · have hsame : h = h' := List.inj_on_of_nodup_map hnodup (Multiset.mem_coe.mp (mem_held.mpr ⟨i, hi⟩))
      (Multiset.mem_coe.mp (mem_held.mpr ⟨j, hj⟩)) he
    exact slot_eq_of_nodup honce hi (hsame ▸ hj)
  · obtain ⟨j, -, htaken, hj, -⟩ := ends_of_lookup hm (hfound h k (mem_held.mpr ⟨i, hi⟩) hk)
    rwa [slot_eq_of_nodup honce hi hj]
  · obtain ⟨k, hk⟩ := hmissed
    obtain ⟨i, hi, -, hnone, -⟩ := ends_of_lookup hm hk
    exact ⟨i, hi, hnone⟩

/-! ### Laying out and searching -/

/-- The keys that can be read one after the other are those that the state tells. -/
theorem key?_of_mapM {hs : List Handle} (hm : t.memory.Legible) (hrun : hs.mapM keyAt t = .ok keys u) :
    List.Forall₂ (fun h k => t.key? h = some k) hs keys := by
  induction hs generalizing keys u with
  | nil =>
    cases hrun
    exact .nil
  | cons h hs ih =>
    rw [List.mapM_cons] at hrun
    have hread := keyAt_yields t h
    cases hkey : keyAt h t with
    | error e w =>
      rw [bind_error hkey] at hrun
      cases hrun
    | ok k w =>
      obtain rfl := (hread.ok hkey).1.same hm
      rw [bind_ok hkey] at hrun
      cases hrest : hs.mapM keyAt w with
      | error e w' =>
        rw [bind_error hrest] at hrun
        cases hrun
      | ok keys' w' =>
        rw [bind_ok hrest] at hrun
        cases hrun
        exact .cons (State.key?_eq_some_iff.mpr hkey) (ih hrest)

/-- Searches find each of the handles by its own of the keys, and miss every other key. -/
structure State.Finds (t : State) (hs : List Handle) (keys : List Value) : Prop where
  found : ∀ k h, t.lookup k = .ok (some h) ↔ (h, k) ∈ hs.zip keys
  missed : ∀ k, t.lookup k = .ok none ↔ k ∉ keys

theorem finds_of_chained {hs : List Handle} (hc : Chained t.key? t.segment.slots)
    (hfree : ∃ i < t.segment.slots.size, occupant? t.segment.slots i = none) (hheld : held t.segment.slots = ↑hs)
    (hkeys : List.Forall₂ (fun h k => t.key? h = some k) hs keys) : t.Finds hs keys := by
  have hfound {k : Value} {h : Handle} (hmem : (h, k) ∈ hs.zip keys) : t.lookup k = .ok (some h) := by
    obtain ⟨hh, hk⟩ := (mem_zip_iff hkeys).mp hmem
    exact lookup_found t.readable hc (hheld ▸ Multiset.mem_coe.mpr hh) hk
  have hmissed {k : Value} (hk : k ∉ keys) : t.lookup k = .ok none := by
    refine lookup_absent t.readable hc hfree fun h hh hkey => hk ?_
    exact (List.of_mem_zip ((mem_zip_iff hkeys).mpr ⟨Multiset.mem_coe.mp (hheld ▸ hh), hkey⟩)).2
  constructor
  · intro k h
    refine ⟨fun hl => ?_, hfound⟩
    by_cases hk : k ∈ keys
    · obtain ⟨h', hmem⟩ := exists_mem_zip hkeys.length_eq hk
      rw [hfound hmem] at hl
      cases hl
      exact hmem
    · rw [hmissed hk] at hl
      cases hl
  · intro k
    refine ⟨fun hl hk => ?_, hmissed⟩
    obtain ⟨h', hmem⟩ := exists_mem_zip hkeys.length_eq hk
    rw [hfound hmem] at hl
    cases hl

/-- If the keys are different, then laying the table out anew puts it in order, and searches answer as before just if it
    was in order already. -/
theorem finds_of_resize {capacity : Nat} (hroom : t.segment.handles.length < capacity) (hm : t.memory.Legible)
    (hrun : t.segment.handles.mapM keyAt t = .ok keys u) (hnodup : keys.Nodup) (hv : resize capacity t = .ok () v) :
    v.Unbroken ∧ v.Finds t.segment.handles keys ∧ ((∀ k, v.lookup k = t.lookup k) ↔ t.Unbroken) := by
  have hkeys := key?_of_mapM hm hrun
  have hmap : t.segment.handles.map t.key? = keys.map some := by
    rw [← List.forall₂_eq_eq_eq, List.forall₂_map_left_iff, List.forall₂_map_right_iff]
    exact hkeys
  have hdistinct : (t.segment.handles.map t.key?).Nodup := by
    rw [hmap]
    exact hnodup.map (Option.some_injective _)
  have hreadable : ∀ h ∈ t.segment.handles, ∃ k, t.key? h = some k := by
    intro h hh
    obtain ⟨k, -, hk⟩ := List.mem_map.mp (hmap ▸ List.mem_map_of_mem hh)
    exact ⟨k, hk.symm⟩
  have hcard : (held t.segment.slots).card < capacity := hroom
  obtain ⟨slots, hanew, hsize, hc, hheld⟩ := resize_anew t.readable hreadable hdistinct hcard
  rw [hanew] at hv
  cases hv
  have hkey : (t.withSlots slots).key? = t.key? := State.key?_withSlots
  rw [← hkey] at hc
  have hfree : ∃ i < slots.size, occupant? slots i = none := exists_free (by rw [hheld, hsize]; exact hroom)
  have hfinds : (t.withSlots slots).Finds t.segment.handles keys :=
    finds_of_chained hc hfree hheld (by rw [hkey]; exact hkeys)
  refine ⟨State.unbroken_of_chained hc hfree, hfinds, fun hsame => ?_, fun ht k => ?_⟩
  · refine unbroken_of_lookup hm hreadable hdistinct (fun h k hh hk => ?_) ?_
    · rw [← hsame]
      exact (hfinds.found k h).mpr ((mem_zip_iff hkeys).mpr ⟨hh, hk⟩)
    · have : Infinite Value := Infinite.of_injective Value.bytes fun _ _ => Value.bytes.inj
      obtain ⟨k, hk⟩ := Infinite.exists_notMem_finset keys.toFinset
      exact ⟨k, (hsame k).symm.trans ((hfinds.missed k).mpr (by rwa [List.mem_toFinset] at hk))⟩
  · have hold := finds_of_chained ht.chained ht.free rfl hkeys
    by_cases hk : k ∈ keys
    · obtain ⟨h, hmem⟩ := exists_mem_zip hkeys.length_eq hk
      rw [(hfinds.found k h).mpr hmem, (hold.found k h).mpr hmem]
    · rw [(hfinds.missed k).mpr hk, (hold.missed k).mpr hk]

/-- Laying a table out anew succeeds just if all keys can be read, and then no handle is lost or cut off from its home,
    whatever the order of the table was. If a key cannot be read, then the old table stays as it was. -/
theorem resize_rehomes (t : State) {capacity : Nat} (hroom : t.segment.handles.length < capacity) :
    (∀ keys u, t.segment.handles.mapM keyAt t = .ok keys u →
      ∃ v, resize capacity t = .ok () v ∧ t.Rehomed keys capacity v ∧ (keys.Nodup → t.memory.Legible →
        v.Unbroken ∧ v.Finds t.segment.handles keys ∧ ((∀ k, v.lookup k = t.lookup k) ↔ t.Unbroken))) ∧
    ∀ e u, t.segment.handles.mapM keyAt t = .error e u →
      resize capacity t = .error e u ∧ u.segment = t.segment ∧ u.memory.arena = t.memory.arena := by
  refine ⟨fun keys u hrun => ?_, fun e u hrun => resize_of_mapM (Nat.le_of_lt hroom) hrun⟩
  obtain ⟨v, hv, hrehomed⟩ := rehomed_of_mapM (Nat.le_of_lt hroom) hrun
  exact ⟨v, hv, hrehomed, fun hnodup hm => finds_of_resize hroom hm hrun hnodup hv⟩

/-! ### A record out of reach -/

/-- A segment whose only record was put under another key than its payload gives, while some reads are planned to
    fail. -/
def misfiled (gaps : List Nat) : State :=
  let t := run [.put (.bool true) ⟨Entity.encode [.int 1], 0, .forever, .null⟩] ⟨⟨{}, {}, .silent "", ⟨0⟩⟩, empty 2⟩
  { t with memory.faults.read := gaps }

/-- Laid out anew, the table is in order. Had the second read failed, it would have stayed as it was. -/
theorem rehomed_of_misfiled : (misfiled []).segment.handles.length < 4 ∧ (misfiled [1]).segment.handles.length < 4 ∧
    (∃ v, resize 4 (misfiled []) = .ok () v ∧ (misfiled []).Rehomed [.int 1] 4 v ∧ v.Unbroken ∧
      v.Finds [⟨1⟩] [.int 1]) ∧
    ∃ u, resize 4 (misfiled [1]) = .error (.error Memory.plannedFault) u ∧ u.segment = (misfiled [1]).segment := by
  refine ⟨by decide, by decide, ?_, ?_⟩
  · obtain ⟨v, hv, hrehomed, hfinds⟩ :=
      (resize_rehomes (misfiled []) (show _ < 4 by decide)).1 [.int 1] (misfiled []) rfl
    obtain ⟨hunbroken, hfinds, -⟩ := hfinds (List.nodup_singleton _) rfl
    exact ⟨v, hv, hrehomed, hunbroken, hfinds⟩
  · obtain ⟨hrun, hsegment, -⟩ :=
      (resize_rehomes (misfiled [1]) (show _ < 4 by decide)).2 (.error Memory.plannedFault) (misfiled []) rfl
    exact ⟨misfiled [], hrun, hsegment⟩

/-- All keys of the table can be read, and they are different, but laying it out anew brings a record to light. -/
theorem contains_misfiled : isPowerOfTwo 4 ∧ (misfiled []).segment.count < 4 ∧
    (misfiled []).segment.handles.mapM keyAt (misfiled []) = .ok [.int 1] (misfiled []) ∧ [Value.int 1].Nodup ∧
    contains (.int 1) (misfiled []) = .ok false (misfiled []) ∧
    ∃ v, resize 4 (misfiled []) = .ok () v ∧ contains (.int 1) v = .ok true v :=
  ⟨by decide, by decide, rfl, by decide, rfl, _, rfl, rfl⟩

end RecordStore.Segment
