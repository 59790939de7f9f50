import RecordStore.Proofs.Arena.Ledger
import RecordStore.Proofs.Segment.FailingCalls

/-! # Records written and read back

A record that was written, into a block of its own or over any other block, is read back as it was: whatever the block
held before, and whether it stayed or moved, it has the bytes of the header and the payload and nothing else. No other
block is changed by it. -/

namespace RecordStore

namespace Arena

variable {a a' : Arena} {h : Handle} {b : Block}

theorem liveCount_added (hdead : a.block? h = none) (hview : a'.block? = Function.update a.block? h (some b)) :
    a'.liveCount = a.liveCount + 1 := by
  have htotal := total_update hview fun _ => 1
  rw [hdead, Option.map_none, Option.getD_none, Option.map_some, Option.getD_some] at htotal
  rw [liveCount_eq_total, liveCount_eq_total]
  exact htotal

end Arena

namespace Record

variable {m m' : Memory} {r r' : Record} {h old : Handle}

/-- Every look at the block of the record tells the record, and changes nothing. -/
structure ReadsBack (r : Record) (m : Memory) : Prop where
  load : load r.handle m = .ok r m
  payloadAt : payloadAt r.handle m = .ok r.payload m
  sizeAt : sizeAt r.handle m = .ok r.size m
  sizeOf : Memory.sizeOf r.handle m = .ok r.size m
  isOverAt : ∀ now, isOverAt r.handle now m = .ok (r.isOver now) m

/-- The record was written as `r'`, which differs in its handle alone. Every memory that has what the arena has now, and
    whose reads are not made to fail, reads it back. -/
structure Written (r r' : Record) (a : Arena) : Prop where
  same : r' = { r with handle := r'.handle }
  size : r'.size = 16 + r.payload.length
  bytes : (a.block? r'.handle).map Block.toList =
    some (Bytes.littleEndian 4 r.payload.length ++ Bytes.littleEndian 8 r.createdAt.toNat ++
      Bytes.littleEndian 4 r.ttl.toNat ++ r.payload)
  readsBack : ∀ m : Memory, m.arena = a → m.Legible → r'.ReadsBack m

/-- The record was stored in a block of its own. -/
structure Stored (r r' : Record) (m m' : Memory) : Prop extends Written r r' m'.arena where
  fresh : m.arena.block? r'.handle = none
  others : ∀ h, h ≠ r'.handle → m'.arena.block? h = m.arena.block? h
  liveCount : m'.arena.liveCount = m.arena.liveCount + 1

/-- The record was stored in the place of what was under the handle `old`. -/
structure StoredOver (old : Handle) (r r' : Record) (m m' : Memory) : Prop extends Written r r' m'.arena where
  live : (m.arena.block? old).isSome
  /-- The block stayed, or it moved to a handle that named none. -/
  place : r'.handle = old ∨ m.arena.block? r'.handle = none ∧ m'.arena.block? old = none
  others : ∀ h, h ≠ old → h ≠ r'.handle → m'.arena.block? h = m.arena.block? h
  liveCount : m'.arena.liveCount = m.arena.liveCount

theorem readsBack_of_holds {a : Arena} (hr : a.Holds r) (ha : m.arena = a) (hm : m.Legible) : r.ReadsBack m := by
  subst ha
  have hrecord := hr.record?
  refine ⟨load_ok hm hrecord, payloadAt_ok hm hrecord, sizeAt_ok hm hrecord, ?_, isOverAt_ok hm hrecord⟩
  obtain ⟨b, hb, hbytes⟩ := hr.block
  have hsize : b.size = r.size := by rw [Block.size_eq_length, hbytes, length_encode]
  simp only [Memory.sizeOf, Arena.sizeOf, hb, hsize]

theorem written_of_block {a : Arena} {b : Block} (hfits : r.payload.length < lengthLimit) (hb : a.block? h = some b)
    (hbytes : b.toList = r.encode) : Written r { r with handle := h } a where
  same := rfl
  size := rfl
  bytes := by rw [hb, Option.map_some, hbytes, encode]
  readsBack _ := readsBack_of_holds ⟨hfits, b, hb, hbytes⟩

theorem stored_of_ok (hfits : r.payload.length < lengthLimit) (hrun : r.store m = .ok r' m') : Stored r r' m m' := by
  rcases store_outcomes (m := m) (size_le_addressable hfits) with
    ⟨-, e, m'', b?, herror, -⟩ | ⟨-, -, m'', b, hok, hbytes, hbecomes⟩
  · rw [hrun] at herror
    cases herror
  · rw [hrun] at hok
    cases hok
    have hblock : m'.arena.block? m.arena.nextHandle = some b := by rw [hbecomes.block?, Function.update_self]
    exact {
      toWritten := written_of_block hfits hblock hbytes
      fresh := Arena.block?_nextHandle
      others := fun h hh => by
        rw [hbecomes.block?]
        exact Function.update_of_ne hh ..
      liveCount := Arena.liveCount_added Arena.block?_nextHandle hbecomes.block? }

/-- What names no block cannot be stored over. -/
theorem live_of_storeOver (hrun : r.storeOver old m = .ok r' m') : ∃ b, m.arena.block? old = some b := by
  cases hb : m.arena.block? old with
  | some b => exact ⟨b, rfl⟩
  | none =>
    have herror : ∃ e, Memory.reallocate old r.size m = .error e (m.passed .reallocate) := by
      cases hdue : m.faults.isDue .reallocate with
      | true => exact ⟨_, Memory.call_due hdue⟩
      | false => exact ⟨_, Memory.call_error hdue (by simp only [Arena.reallocate, hb]; rfl)⟩
    obtain ⟨e, he⟩ := herror
    rw [storeOver, Action.bind_error he] at hrun
    cases hrun

theorem storedOver_of_ok (hfits : r.payload.length < lengthLimit) (hrun : r.storeOver old m = .ok r' m') :
    StoredOver old r r' m m' := by
  obtain ⟨b, hb⟩ := live_of_storeOver hrun
  rcases storeOver_outcomes hb (size_le_addressable hfits) with
    ⟨e, m'', -, -, herror⟩ | ⟨-, ⟨e, m'', herror⟩ | ⟨h, m'', b', hok, -, hplace, hbytes, hbecomes⟩⟩
  · rw [hrun] at herror
    cases herror
  · rw [hrun] at herror
    cases herror
  · rw [hrun] at hok
    cases hok
    have hblock : m'.arena.block? h = some b' := by rw [hbecomes.block?, Function.update_self]
    have hdied : h = old ∨ m.arena.block? h = none ∧ m'.arena.block? old = none := by
      refine hplace.imp_right fun hdead => ⟨hdead, ?_⟩
      have hne : old ≠ h := by
        rintro rfl
        rw [hb] at hdead
        cases hdead
      rw [hbecomes.block?, Function.update_of_ne hne, Function.update_self]
    exact {
      toWritten := written_of_block hfits hblock hbytes
      live := by rw [hb]; rfl
      place := hdied
      others := fun g hg hg' => by
        rw [hbecomes.block?]
        exact (Function.update_of_ne hg' ..).trans (Function.update_of_ne hg ..)
      liveCount := Arena.liveCount_moved hb hplace hbecomes.block? }

/-- Whatever the memory holds and whichever of its calls fail, a record that could be written is read back. -/
theorem readsBack_of_written (r : Record) (m : Memory) (hfits : r.payload.length < lengthLimit) :
    (∀ r' m', r.store m = .ok r' m' → Stored r r' m m') ∧
      ∀ old r' m', r.storeOver old m = .ok r' m' → StoredOver old r r' m m' :=
  ⟨fun _ _ => stored_of_ok hfits, fun _ _ _ => storedOver_of_ok hfits⟩

/-- A long record is stored, a short one over it in the same block, and one that is too long for this block over that, in
    another one. -/
theorem readsBack_of_shrunk_and_moved :
    ∃ long short longer m₁ m₂ m₃,
      (⟨List.replicate 16 0xFF, 1, 2, .null⟩ : Record).store Memory.empty = .ok long m₁ ∧
      (⟨[7, 8, 9], 3, 4, .null⟩ : Record).storeOver long.handle m₁ = .ok short m₂ ∧
      (⟨List.replicate 20 0xAA, 5, 6, .null⟩ : Record).storeOver short.handle m₂ = .ok longer m₃ ∧
      long.handle = ⟨1⟩ ∧ short.handle = ⟨1⟩ ∧ longer.handle = ⟨2⟩ ∧
      Stored ⟨List.replicate 16 0xFF, 1, 2, .null⟩ long Memory.empty m₁ ∧
      StoredOver ⟨1⟩ ⟨[7, 8, 9], 3, 4, .null⟩ short m₁ m₂ ∧
      StoredOver ⟨1⟩ ⟨List.replicate 20 0xAA, 5, 6, .null⟩ longer m₂ m₃ := by
  refine ⟨_, _, _, _, _, _, rfl, rfl, rfl, rfl, rfl, rfl, ?_, ?_, ?_⟩
  · exact (readsBack_of_written _ _ (by decide)).1 _ _ rfl
  · exact (readsBack_of_written _ _ (by decide)).2 _ _ _ rfl
  · exact (readsBack_of_written _ _ (by decide)).2 _ _ _ rfl

end Record

end RecordStore
