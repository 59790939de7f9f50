import RecordStore.Proofs.Reading

/-! # Handing out handles

Whatever a memory holds and whichever of its calls fail, it gives out handles in order and none twice. The null handle
came before all of them. -/

namespace RecordStore

open RecordStore.Action

/-- A benign failure, which is reported if the block that was asked for can be addressed. -/
structure Failure.BenignFor (size : Nat) (e : Failure) : Prop where
  benign : e.Benign
  reported : size ≤ Block.addressable → e.Reported

theorem Failure.Reported.benignFor {e : Failure} {size : Nat} (h : e.Reported) : e.BenignFor size :=
  ⟨h.benign, fun _ => h⟩

namespace Arena

variable {a a' : Arena} {h h' : Handle} {size : Nat}

/-- Blocks are released, but their handles are not forgotten. -/
def Grows (a a' : Arena) : Prop := a.blocks.size ≤ a'.blocks.size

theorem blocks_reserve {delta : Nat} (hok : a.reserve delta = .ok a') : a'.blocks = a.blocks := by
  unfold reserve at hok
  split at hok
  · cases hok
    rfl
  · split at hok
    · cases hok
      rfl
    · cases hok

theorem zeros_benign {abort : Abort} (h : Block.zeros size = .error abort) : Failure.Benign (.abort abort) := by
  unfold Block.zeros at h
  dsimp only at h
  split at h
  · cases h
    trivial
  · split at h
    · cases h
      trivial
    · cases h

/-- A new block takes the next handle. -/
theorem allocate_yields (a : Arena) (size : Nat) :
    Yields (allocate size) a (fun h a' => a.Grows a' ∧ h = a.nextHandle)
      fun e a' => a.Grows a' ∧ e.BenignFor size := by
  unfold Yields allocate Grows
  cases hreserve : a.reserve size with
  | error e => exact ⟨Nat.le_refl _, Failure.Reported.benignFor ⟨e, rfl⟩⟩
  | ok r =>
    have hblocks := blocks_reserve hreserve
    cases hzeros : Block.zeros size with
    | error abort =>
      refine ⟨?_, zeros_benign hzeros, fun hsize => ?_⟩
      · simp [append, hblocks]
      · rw [Block.zeros_eq hsize] at hzeros
        cases hzeros
    | ok b =>
      dsimp only
      refine ⟨?_, by rw [nextHandle, nextHandle, hblocks]⟩
      simp [append, hblocks]

/-- A resized block keeps its handle or takes the next one. -/
theorem reallocate_yields (a : Arena) (h : Handle) (size : Nat) :
    Yields (reallocate h size) a (fun h' a' => a.Grows a' ∧ (h' = h ∨ h' = a.nextHandle))
      fun e a' => a.Grows a' ∧ e.Benign := by
  unfold Yields reallocate Grows
  cases a.block? h with
  | none => exact ⟨Nat.le_refl _, trivial⟩
  | some b =>
    dsimp only
    have hblocks {r : Arena} (hr : (if b.size < size then a.reserve (size - b.size) else .ok a) = .ok r) :
        r.blocks = a.blocks := by
      split at hr
      · exact blocks_reserve hr
      · cases hr
        rfl
    cases hreserve : (if b.size < size then a.reserve (size - b.size) else .ok a) with
    | error e => exact ⟨Nat.le_refl _, trivial⟩
    | ok r =>
      dsimp only
      by_cases hroom : size ≤ b.capacity
      · simp [hroom, replace, unreserve, hblocks hreserve]
      · rw [if_neg hroom, move]
        cases hzeros : Block.zeros size with
        | error abort =>
          refine ⟨?_, zeros_benign hzeros⟩
          simp [replace, hblocks hreserve]
        | ok room =>
          dsimp only
          refine ⟨?_, Or.inr (by rw [nextHandle, nextHandle, hblocks hreserve])⟩
          simp [replace, append, hblocks hreserve]

theorem release_yields (a : Arena) (h : Handle) :
    Yields (release h) a (fun _ a' => a.Grows a') fun e a' => a.Grows a' ∧ e.Reported := by
  unfold Yields release Grows
  cases a.block? h with
  | none => exact ⟨Nat.le_refl _, _, rfl⟩
  | some b => simp [replace, unreserve]

theorem write_yields (a : Arena) (h : Handle) (offset : Nat) (data : Bytes) :
    Yields (write h offset data) a (fun _ a' => a.Grows a') fun e a' => a.Grows a' ∧ e.Reported := by
  unfold Yields write Grows
  cases a.access h offset data.length with
  | error e => exact ⟨Nat.le_refl _, _, rfl⟩
  | ok b => simp [replace]

end Arena

namespace Memory

variable {α : Type} {m : Memory} {h : Handle}

/-- The null handle has been passed. -/
def Started (m : Memory) : Prop := 0 < m.arena.blocks.size

def Grows (m m' : Memory) : Prop := m.arena.Grows m'.arena

instance : IsPreorder Memory Grows where
  refl _ := Nat.le_refl _
  trans _ _ _ := Nat.le_trans

theorem Started.grows {m' : Memory} (hm : m.Started) (h : m.Grows m') : m'.Started := Nat.lt_of_lt_of_le hm h

theorem Started.nextHandle_ne (hm : m.Started) : m.arena.nextHandle ≠ .null := by
  intro heq
  exact absurd (congrArg Handle.number heq) (Nat.ne_of_gt hm)

theorem Unwritten.grows {m' : Memory} (h : m.Unwritten m') : m.Grows m' := by
  unfold Grows
  rw [h.arena]
  exact Nat.le_refl _

/-- A call does what the arena does, or fails by plan. -/
theorem call_yields {c : Call} {x : Action Arena α} {Q : α → Arena → Prop} {E : Failure → Arena → Prop}
    (hx : Yields x m.arena Q E) (hdue : E (.error plannedFault) m.arena) :
    Yields (call c x) m (fun v m' => Q v m'.arena) fun e m' => E e m'.arena := by
  cases hplan : m.faults.isDue c with
  | true => exact .of_error (call_due hplan) hdue
  | false =>
    cases hrun : x m.arena with
    | ok v a =>
      rw [Yields, hrun] at hx
      exact .of_ok (call_ok hplan hrun) hx
    | error e a => exact .of_error (call_error hplan hrun) (hx.error hrun)

theorem allocate_yields (m : Memory) (size : Nat) :
    Yields (allocate size) m (fun h m' => m.Grows m' ∧ h = m.arena.nextHandle)
      fun e m' => m.Grows m' ∧ e.BenignFor size :=
  call_yields (m.arena.allocate_yields size) ⟨Nat.le_refl _, Failure.Reported.benignFor ⟨_, rfl⟩⟩

theorem reallocate_yields (m : Memory) (h : Handle) (size : Nat) :
    Yields (reallocate h size) m (fun h' m' => m.Grows m' ∧ (h' = h ∨ h' = m.arena.nextHandle))
      fun e m' => m.Grows m' ∧ e.Benign :=
  call_yields (m.arena.reallocate_yields h size) ⟨Nat.le_refl _, trivial⟩

theorem tame_release (h : Handle) : Tame Grows (release h) := fun m =>
  call_yields (m.arena.release_yields h) ⟨Nat.le_refl _, _, rfl⟩

theorem tame_write (h : Handle) (offset : Nat) (data : Bytes) : Tame Grows (write h offset data) := fun m =>
  call_yields (m.arena.write_yields h offset data) ⟨Nat.le_refl _, _, rfl⟩

end Memory

namespace Record

open Memory (Grows tame_write)

theorem tame_writeTo (r : Record) (h : Handle) : Tame Grows (r.writeTo h) := by
  have hwrite : Tame Grows (do
      Memory.writeWord h lengthOffset 4 r.payload.length
      Memory.writeUInt64 h createdAtOffset r.createdAt
      Memory.writeUInt32 h ttlOffset r.ttl
      Memory.write h payloadOffset r.payload) :=
    (tame_write h lengthOffset _).bind fun _ => (tame_write h createdAtOffset _).bind fun _ =>
      (tame_write h ttlOffset _).bind fun _ => tame_write h payloadOffset r.payload
  unfold writeTo
  split
  · exact (Tame.fail _).bind fun _ => hwrite
  · exact hwrite

/-- A stored record has a handle that is not null, whatever fails on the way. -/
theorem store_yields {m : Memory} (r : Record) (hm : m.Started) :
    Yields r.store m (fun r' m' => m.Grows m' ∧ r'.handle ≠ .null)
      fun e m' => m.Grows m' ∧ e.BenignFor r.size := by
  refine (m.allocate_yields r.size).chain fun h m₁ hgiven => ?_
  obtain ⟨hgrows, rfl⟩ := hgiven
  refine .bind (((tame_writeTo r _).attempt m₁).mono (fun result m₂ hwritten => ?_) fun _ _ => False.elim)
  cases result with
  | ok _ => exact ⟨IsTrans.trans _ _ _ hgrows hwritten, hm.nextHandle_ne⟩
  | error e =>
    refine .bind (((Memory.tame_release _).attempt m₂).mono (fun _ m₃ hreleased => ?_) fun _ _ => False.elim)
    exact ⟨IsTrans.trans _ _ _ hgrows (IsTrans.trans _ _ _ hwritten hreleased), Failure.Reported.benignFor ⟨e, rfl⟩⟩

theorem storeOver_yields {m : Memory} {old : Handle} (r : Record) (hm : m.Started) (hold : old ≠ .null) :
    Yields (r.storeOver old) m (fun r' m' => m.Grows m' ∧ r'.handle ≠ .null) fun e m' => m.Grows m' ∧ e.Benign := by
  refine (m.reallocate_yields old r.size).chain fun h m₁ hgiven => ?_
  obtain ⟨hgrows, hhandle⟩ := hgiven
  refine .bind ((tame_writeTo r h m₁).mono (fun _ m₂ hwritten => ?_) fun e m₂ hfailed => ?_)
  · refine ⟨IsTrans.trans _ _ _ hgrows hwritten, ?_⟩
    rcases hhandle with rfl | rfl
    · exact hold
    · exact hm.nextHandle_ne
  · exact ⟨IsTrans.trans _ _ _ hgrows hfailed.1, hfailed.2.benign⟩

end Record

end RecordStore
