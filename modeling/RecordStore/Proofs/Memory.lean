import RecordStore.Proofs.Actions
import RecordStore.Proofs.Arena.Calls

/-! # A steady memory

A memory is steady if only its calls for room can be made to fail. Everything else such a memory does is what its
arena does. -/

namespace RecordStore

/-- No call is planned to fail but those for room. -/
structure Faults.OnlyRoom (f : Faults) : Prop where
  release : f.release = []
  read : f.read = []
  write : f.write = []

/-- A call takes the plan for calls of its kind only. -/
theorem Faults.gaps_pass {c d : Call} (f : Faults) (h : d ≠ c) : (f.pass c).gaps d = f.gaps d := by
  unfold pass
  split
  · rfl
  · cases c <;> cases d <;> first | rfl | exact absurd rfl h

namespace Memory

variable {α : Type} {m : Memory} {c : Call} {x : Action Arena α} {v : α} {a : Arena} {h : Handle} {b : Block}

theorem call_due (hdue : m.faults.isDue c = true) :
    call c x m = .error (.error plannedFault) { m with faults := m.faults.pass c } := by
  cases m
  simp only [call] at hdue ⊢
  rw [if_pos hdue]

theorem call_ok (hdue : m.faults.isDue c = false) (hx : x m.arena = .ok v a) :
    call c x m = .ok v ⟨a, m.faults.pass c⟩ := by
  cases m
  simp only [call] at hdue hx ⊢
  simp only [hdue, Bool.false_eq_true, ↓reduceIte, hx]

theorem call_error {e : Failure} (hdue : m.faults.isDue c = false) (hx : x m.arena = .error e a) :
    call c x m = .error e ⟨a, m.faults.pass c⟩ := by
  cases m
  simp only [call] at hdue hx ⊢
  simp only [hdue, Bool.false_eq_true, ↓reduceIte, hx]

theorem call_unplanned (hgaps : m.faults.gaps c = []) (hx : x m.arena = .ok v a) :
    call c x m = .ok v { m with arena := a } := by
  rw [call_ok (by simp [Faults.isDue, hgaps]) hx, Faults.pass, hgaps]

theorem call_unplanned_error {e : Failure} (hgaps : m.faults.gaps c = []) (hx : x m.arena = .error e a) :
    call c x m = .error e { m with arena := a } := by
  rw [call_error (by simp [Faults.isDue, hgaps]) hx, Faults.pass, hgaps]

/-- Only calls for room can be made to fail. -/
def Steady (m : Memory) : Prop := m.faults.OnlyRoom

theorem steady_pass {f : Faults} (hf : f.OnlyRoom) (hc : c = .allocate ∨ c = .reallocate) : (f.pass c).OnlyRoom := by
  unfold Faults.pass
  split
  · exact hf
  · rcases hc with rfl | rfl <;> exact ⟨hf.release, hf.read, hf.write⟩

/-- What a planned fault leaves behind: only the plan has gone on. -/
def passed (m : Memory) (c : Call) : Memory := { m with faults := m.faults.pass c }

/-- How a call for room is refused: by plan, or at the limit. -/
def Refuses (m : Memory) (c : Call) (e : Error) : Prop :=
  (m.faults.isDue c = true ∧ e = plannedFault) ∨
    ∃ requested limit, m.arena.limit? = some limit ∧ e = .outOfMemory requested limit

theorem not_refuses {e : Error} (hfaults : m.faults = .never) (hlimit : m.arena.limit? = none) : ¬ m.Refuses c e := by
  rintro (⟨hdue, -⟩ | ⟨_, _, hsome, -⟩)
  · rw [hfaults] at hdue
    cases c <;> exact absurd hdue (by decide)
  · rw [hlimit] at hsome
    cases hsome

theorem pass_never : Faults.never.pass c = .never := by
  cases c <;> rfl

/-- No read is planned to fail. -/
def Legible (m : Memory) : Prop := m.faults.read = []

theorem Steady.legible (hm : m.Steady) : m.Legible := hm.read

theorem read_ok {offset length : Nat} (hm : m.Legible) (hb : m.arena.block? h = some b)
    (hin : offset + length ≤ b.size) : read h offset length m = .ok ((b.toList.drop offset).take length) m :=
  call_unplanned hm (by simp only [Arena.read_eq hb hin])

theorem read_outOfBounds {offset length : Nat} (hm : m.Legible) (hb : m.arena.block? h = some b)
    (hout : ¬ offset + length ≤ b.size) :
    read h offset length m = .error (.error (.outOfBounds h offset length b.size)) m := by
  have hread : m.arena.read h offset length = .error (.outOfBounds h offset length b.size) := by
    simp only [Arena.read, Arena.access, hb, if_neg hout, Except.map]
  exact call_unplanned_error hm (by simp only [hread])

theorem read_dead {offset length : Nat} (hm : m.Legible) (hb : m.arena.block? h = none) :
    read h offset length m = .error (.error (.invalidHandle h)) m := by
  have hread : m.arena.read h offset length = .error (.invalidHandle h) := by
    simp only [Arena.read, Arena.access, hb, Except.map]
  exact call_unplanned_error hm (by simp only [hread])

theorem release_ok (hm : m.Steady) (hb : m.arena.block? h = some b) :
    ∃ a, release h m = .ok () { m with arena := a } ∧ m.arena.Becomes a (Function.update m.arena.block? h none) := by
  obtain ⟨a, hr, hbecomes⟩ := Arena.release_eq hb
  exact ⟨a, call_unplanned hm.release hr, hbecomes⟩

/-- A release fails by plan and changes nothing, or takes the block away. -/
theorem release_cases (hb : m.arena.block? h = some b) :
    (m.faults.isDue .release = true ∧ release h m = .error (.error plannedFault) (m.passed .release)) ∨
    (m.faults.isDue .release = false ∧ ∃ a, release h m = .ok () ⟨a, m.faults.pass .release⟩ ∧
      m.arena.Becomes a (Function.update m.arena.block? h none)) := by
  cases hdue : m.faults.isDue .release with
  | true => exact Or.inl ⟨rfl, call_due hdue⟩
  | false =>
    obtain ⟨a, hr, hbecomes⟩ := Arena.release_eq hb
    exact Or.inr ⟨rfl, a, call_ok hdue hr, hbecomes⟩

/-- A write fails by plan and changes nothing, or puts its bytes in place. -/
theorem write_cases {offset : Nat} {data : Bytes} (hb : m.arena.block? h = some b)
    (hin : offset + data.length ≤ b.size) :
    (m.faults.isDue .write = true ∧ write h offset data m = .error (.error plannedFault) (m.passed .write)) ∨
    (m.faults.isDue .write = false ∧ ∃ a, write h offset data m = .ok () ⟨a, m.faults.pass .write⟩ ∧
      m.arena.Becomes a (Function.update m.arena.block? h (some (b.overwrite offset data)))) := by
  cases hdue : m.faults.isDue .write with
  | true => exact Or.inl ⟨rfl, call_due hdue⟩
  | false =>
    obtain ⟨a, hw, hbecomes⟩ := Arena.write_eq hb hin
    exact Or.inr ⟨rfl, a, call_ok hdue hw, hbecomes⟩

theorem allocate_cases {size : Nat} (m : Memory) (hsize : size ≤ Block.addressable) :
    (∃ e, m.Refuses .allocate e ∧ allocate size m = .error (.error e) (m.passed .allocate)) ∨
    ∃ a, allocate size m = .ok m.arena.nextHandle ⟨a, m.faults.pass .allocate⟩ ∧
      m.arena.Becomes a (Function.update m.arena.block? m.arena.nextHandle (some (Block.fresh size))) := by
  by_cases hdue : m.faults.isDue .allocate = true
  · exact Or.inl ⟨_, Or.inl ⟨hdue, rfl⟩, call_due hdue⟩
  · rw [Bool.not_eq_true] at hdue
    rcases Arena.allocate_cases m.arena size with ⟨limit, hlimit, -, he⟩ | ⟨a, hok, hbecomes⟩ | ⟨-, -, hlarge, -⟩
    · exact Or.inl ⟨_, Or.inr ⟨_, _, hlimit, rfl⟩, call_error hdue he⟩
    · exact Or.inr ⟨a, call_ok hdue hok, hbecomes⟩
    · exact absurd hsize (Nat.not_le_of_lt hlarge)

/-- A resized block has its handle, if it has the room, or one that named no block, and its leading bytes. -/
theorem reallocate_cases (size : Nat) (hb : m.arena.block? h = some b) :
    (∃ e, m.Refuses .reallocate e ∧ reallocate h size m = .error (.error e) (m.passed .reallocate)) ∨
    (∃ h' b' a, reallocate h size m = .ok h' ⟨a, m.faults.pass .reallocate⟩ ∧
      (h' = h ∧ size ≤ b.capacity ∨ m.arena.block? h' = none ∧ b.capacity < size) ∧
      b'.toList = (b.resize size).toList ∧
      m.arena.Becomes a (Function.update (Function.update m.arena.block? h none) h' (some b'))) ∨
    ∃ x m', Block.addressable < size ∧ reallocate h size m = .error (.abort x) m' := by
  cases hdue : m.faults.isDue .reallocate with
  | true => exact Or.inl ⟨_, Or.inl ⟨hdue, rfl⟩, call_due hdue⟩
  | false =>
    rcases Arena.reallocate_cases size hb with
      ⟨limit, hlimit, -, -, he⟩ | ⟨hroom, a, hok, hbecomes⟩ | ⟨hroom, a, hok, hbecomes⟩ | ⟨x, a, hsize, he, -⟩
    · exact Or.inl ⟨_, Or.inr ⟨_, _, hlimit, rfl⟩, call_error hdue he⟩
    · refine Or.inr (Or.inl ⟨h, _, a, call_ok hdue hok, Or.inl ⟨rfl, hroom⟩, rfl, ?_⟩)
      rw [Function.update_idem]
      exact hbecomes
    · exact Or.inr (Or.inl ⟨_, { b.resize size with capacity := Block.capacityFor size }, a, call_ok hdue hok,
        Or.inr ⟨Arena.block?_nextHandle, hroom⟩, rfl, hbecomes⟩)
    · exact Or.inr (Or.inr ⟨x, _, hsize, call_error hdue he⟩)

end Memory

end RecordStore
