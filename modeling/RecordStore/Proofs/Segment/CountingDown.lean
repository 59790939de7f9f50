import RecordStore.Proofs.Segment.KeepingRoom
import RecordStore.Proofs.Segment.NoEvictions
import RecordStore.Proofs.Segment.Visiting
import RecordStore.Proofs.Thresholds

/-! # Counting down

Whatever fails on the way, all that an operation other than a put does to the number of entries is to count some of
them down, and it marks the lower threshold as they do. A put counts one entry up if it stores a new one, and nothing
if it fails. -/

namespace RecordStore.Segment

open RecordStore.Action

variable {t u : State} {n : Nat} {k : Value} {r : Record}

/-- Entries have been counted down, or none has. -/
def Dwindling (t u : State) : Prop := t.counters.Dwindles u.counters

instance : IsPreorder State Dwindling where
  refl t := refl t.counters
  trans t u v := IsTrans.trans t.counters u.counters v.counters

theorem Rearranged.dwindling (h : Rearranged t u) : Dwindling t u := by
  rw [Dwindling, h.counters]
  exact refl t.counters

theorem dwindling_entryRemoved (n : Nat) : Moves Dwindling (onCounters (Counters.entryRemoved n)) := by
  intro t
  rw [final_onCounters]
  exact Counters.dwindles_entryRemoved n t.counters

theorem dwindling_evict (k : Value) : Moves Dwindling (evict k) := by
  have hexpired : Moves Dwindling (modifyCounters (·.entryExpired)) := fun t => Counters.Dwindles.of_eq rfl rfl rfl
  refine Rearranged.moves_evict Rearranged.dwindling dwindling_entryRemoved hexpired (fun x t => ?_) k
  rw [final_onNotifier]
  exact Counters.Dwindles.of_eq rfl rfl rfl

/-! ### Looking and removing -/

theorem dwindling_contains (k : Value) : Moves Dwindling (contains k) :=
  Unwritten.moves_contains (fun h => h.rearranged.dwindling) dwindling_evict k

theorem dwindling_getRecord? (k : Value) : Moves Dwindling (getRecord? k) :=
  Unwritten.moves_getRecord? (fun h => h.rearranged.dwindling) dwindling_evict k

theorem dwindling_get? (k : Value) : Moves Dwindling (get? k) :=
  Unwritten.moves_get? (fun h => h.rearranged.dwindling) dwindling_evict k

theorem dwindling_matching (tm : Template) : Moves Dwindling (matching tm) :=
  Unwritten.moves_matching (fun h => h.rearranged.dwindling) dwindling_evict tm

theorem dwindling_evictExpired : Moves Dwindling evictExpired :=
  Unwritten.moves_evictExpired (fun h => h.rearranged.dwindling) dwindling_evict

theorem dwindling_remove (k : Value) : Moves Dwindling (remove k) :=
  Rearranged.moves_remove Rearranged.dwindling dwindling_entryRemoved k

theorem dwindling_destroy : Moves Dwindling destroy :=
  Rearranged.moves_destroy Rearranged.dwindling dwindling_entryRemoved

/-! ### Putting -/

/-- Only bytes have been counted. -/
def Weighed (t u : State) : Prop := ∃ bytes, u.counters = { t.counters with bytes }

instance : IsPreorder State Weighed where
  refl t := ⟨t.counters.bytes, rfl⟩
  trans t u v := by
    rintro ⟨bytes, h₁⟩ ⟨bytes', h₂⟩
    exact ⟨bytes', by rw [h₂, h₁]⟩

theorem Rearranged.weighed (h : Rearranged t u) : Weighed t u := ⟨t.counters.bytes, h.counters⟩

theorem Weighed.dwindling (h : Weighed t u) : Dwindling t u := by
  obtain ⟨bytes, hc⟩ := h
  rw [Dwindling, hc]
  exact .of_eq rfl rfl rfl

theorem Weighed.rehash? (h : Weighed t u) : u.counters.rehash? = t.counters.rehash? := by
  obtain ⟨bytes, hc⟩ := h
  rw [hc]

/-- A new record for which room is reserved is counted once it is stored, and no more if it is not. -/
theorem settle_counted {t₀ : State} (ht : t.counters = { t₀.counters with
      bytes := t₀.counters.bytes + UInt64.ofNat r.size, items := t₀.counters.items + 1 }) (k : Value) :
    Yields (do
      match ← Action.attempt (insert k r) with
      | .ok () =>
        modifyCounters (·.insertCommitted (t₀.counters.items + 1))
        return 0
      | .error e =>
        modifyCounters (·.cancelInsert r.size)
        Action.fail e : Op Nat) t (fun _ u => t₀.counters.Raises u.counters)
      fun _ u => u.counters.rehash? = t₀.counters.rehash? ∧
        ∀ n, t.Safe (n + 1) → r.size ≤ Block.addressable → Dwindling t₀ u := by
  have hquiet := rearranged_insert k r
  cases hrun : insert k r t with
  | ok _ u =>
    have hcounters := (hquiet.ok hrun).counters.trans ht
    refine .of_eq (bind_ok (attempt_ok hrun)) ?_
    show t₀.counters.Raises (u.counters.insertCommitted (t₀.counters.items + 1))
    rw [hcounters]
    exact Counters.raises_insertCommitted _
  | error e u =>
    have hcounters := (hquiet.error hrun).counters.trans ht
    cases e with
    | error e =>
      have hcancel : (u.counters.cancelInsert r.size) = t₀.counters := by
        rw [hcounters, Counters.cancelInsert_reserved]
      refine .of_eq (bind_ok (attempt_error hrun)) ⟨congrArg Counters.rehash? hcancel, fun _ _ _ => ?_⟩
      show t₀.counters.Dwindles (u.counters.cancelInsert r.size)
      rw [hcancel]
      exact refl t₀.counters
    | abort abort =>
      refine .of_error (bind_error (attempt_abort hrun)) ⟨by rw [hcounters], fun n hsafe hsize => ?_⟩
      -- A table with room does not abort on a record that can be addressed.
      obtain ⟨error, habort⟩ := ((insert_safely hsafe k r).error hrun).2.reported hsize
      cases habort

/-- A put that is answered counts one entry up or none. One that fails marks nothing, and if its record can be addressed
    it counts nothing. -/
theorem put_counted (t : State) (k : Value) (r : Record) :
    Yields (put k r) t (fun _ u => Dwindling t u ∨ t.counters.Raises u.counters)
      fun _ u => u.counters.rehash? = t.counters.rehash? ∧
        ∀ n, t.Safe n → r.size ≤ Block.addressable → Dwindling t u := by
  refine .bind (((moves_probe k).yields t).mono (fun found v hv => ?_) fun e v hv => ?_)
  · have hcounters := hv.rearranged.counters
    cases found with
    | found i h =>
      have hweighed : Moves Weighed (do
          let previous ← onMemory (Record.sizeAt h)
          overwrite i h previous r : Op Nat) :=
        Moves.bind ((rearranged_onMemory _).mono fun _ _ => Rearranged.weighed) fun previous =>
          Rearranged.moves_overwrite Rearranged.weighed (fun _ bytes => ⟨bytes, rfl⟩) i h previous r
      refine (hweighed.yields v).mono (fun _ u hu => ?_) fun e u hu => ?_
      · exact Or.inl (IsTrans.trans _ _ _ hv.rearranged.dwindling hu.dwindling)
      · exact ⟨hu.rehash?.trans (congrArg Counters.rehash? hcounters), fun _ _ _ =>
          IsTrans.trans _ _ _ hv.rearranged.dwindling hu.dwindling⟩
    | absent i =>
      rcases Counters.reserveInsert_cases v.counters r.size with ⟨reason, hres, -⟩ | hres
      · have hrefused := reserve_error (t := v) (p := r.payload) (·.reserveInsert r.size) hres
        exact .of_error (bind_error hrefused) ⟨congrArg Counters.rehash? hcounters, fun _ _ _ => hv.rearranged.dwindling⟩
      · have hreserved := reserve_ok (t := v) (p := r.payload) (·.reserveInsert r.size) hres
        rw [hcounters] at hreserved
        refine .of_eq (bind_ok hreserved) ((settle_counted rfl k).mono (fun _ u hu => Or.inr hu) fun e u hu => ?_)
        refine ⟨hu.1, fun n ht hsize => hu.2 n ?_ hsize⟩
        have hitems := ht.items
        refine (ht.unwritten hv).counted ?_
        show v.segment.count + (n + 1) ≤ t.counters.items + 1
        rw [hv.segment_eq]
        omega
  · exact ⟨congrArg Counters.rehash? hv.rearranged.counters, fun _ _ _ => hv.rearranged.dwindling⟩

end RecordStore.Segment
