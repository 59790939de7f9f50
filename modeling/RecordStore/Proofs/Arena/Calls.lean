import RecordStore.Memory
import RecordStore.Proofs.Arena.Blocks

/-! # What the calls of an arena do

A call for room is refused at the limit and changes nothing then. Otherwise it gives a block of zeros, or the
leading bytes of a block under the handle that names them from then on. Reading changes nothing. -/

namespace RecordStore

namespace Block

variable {b : Block} {size offset : Nat} {data : Bytes}

theorem capacityFor_eq (size : Nat) : capacityFor size = 2 ^ ((max size minCapacity - 1).log2 + 1) := rfl

theorem le_capacityFor (size : Nat) : size ≤ capacityFor size := by
  have hlog : max size minCapacity - 1 < 2 ^ ((max size minCapacity - 1).log2 + 1) := Nat.lt_log2_self
  rw [capacityFor_eq]
  omega

theorem capacityFor_le {k : Nat} (hsize : size ≤ 2 ^ k) (hmin : minCapacity ≤ 2 ^ k) : capacityFor size ≤ 2 ^ k := by
  have hpos : max size minCapacity - 1 ≠ 0 := by
    unfold minCapacity
    omega
  rw [capacityFor_eq]
  refine Nat.pow_le_pow_right (by decide) ?_
  exact (Nat.log2_lt hpos).mpr (by omega)

/-- Blocks of up to this many bytes can be laid out. -/
def addressable : Nat := 2 ^ 62

/-- A block of zeros that can be laid out. -/
def fresh (size : Nat) : Block := ⟨zeroBytes size, capacityFor size⟩

theorem zeros_eq (hsize : size ≤ addressable) : zeros size = .ok (fresh size) := by
  have hcap : capacityFor size ≤ 2 ^ 62 := capacityFor_le hsize (by decide)
  have hword : ¬ wordLimit ≤ capacityFor size := fun h => absurd (Nat.le_trans h hcap) (by decide)
  have hmax : ¬ maxCapacity < capacityFor size := fun h => absurd (Nat.lt_of_lt_of_le h hcap) (by decide)
  simp only [zeros, if_neg hword, if_neg hmax, fresh]

theorem zeros_cases (size : Nat) : zeros size = .ok (fresh size) ∨ ∃ x, zeros size = .error x ∧ addressable < size := by
  cases hz : zeros size with
  | error x =>
    refine Or.inr ⟨x, rfl, Nat.lt_of_not_le fun hsize => ?_⟩
    rw [zeros_eq hsize] at hz
    cases hz
  | ok b =>
    unfold zeros at hz
    simp only at hz
    split at hz
    · cases hz
    · split at hz
      · cases hz
      · exact Or.inl hz.symm

theorem size_eq_length (b : Block) : b.size = b.toList.length := by
  simp [size, toList]

@[simp] theorem toList_fresh (size : Nat) : (fresh size).toList = List.replicate size 0 := by
  simp [fresh, toList, zeroBytes]

@[simp] theorem size_fresh (size : Nat) : (fresh size).size = size := by
  rw [size_eq_length, toList_fresh, List.length_replicate]

@[simp] theorem size_resize (b : Block) (size : Nat) : (b.resize size).size = size := by
  rw [size_eq_length, toList_resize, List.length_append, List.length_take, List.length_replicate, ← size_eq_length]
  omega

theorem size_overwrite (h : offset + data.length ≤ b.size) : (b.overwrite offset data).size = b.size := by
  rw [size_eq_length] at h ⊢
  rw [toList_overwrite, List.length_append, List.length_append, List.length_take, List.length_drop,
    Nat.min_eq_left (by omega), size_eq_length]
  omega

end Block

namespace Arena

variable {a : Arena} {h : Handle} {b : Block} {limit size : Nat}

theorem reserve_cases (a : Arena) (n : Nat) :
    (∃ limit, a.limit? = some limit ∧ limit < a.allocatedBytes.toNat + n ∧
      a.reserve n = .error (.outOfMemory n limit)) ∨
    a.reserve n = .ok { a with allocatedBytes := a.allocatedBytes + UInt64.ofNat n } := by
  unfold reserve
  split
  · exact Or.inr rfl
  · rename_i limit hlimit
    split
    · exact Or.inr rfl
    · rename_i hlt
      exact Or.inl ⟨limit, hlimit, by omega, rfl⟩

theorem reserve_refused {delta : Nat} (hlimit : a.limit? = some limit) (hlt : limit < a.allocatedBytes.toNat + delta) :
    a.reserve delta = .error (.outOfMemory delta limit) := by
  unfold reserve
  simp only [hlimit]
  rw [if_neg (by omega)]

theorem allocate_refused (hlimit : a.limit? = some limit) (hlt : limit < a.allocatedBytes.toNat + size) :
    allocate size a = .error (.error (.outOfMemory size limit)) a := by
  simp only [allocate, reserve_refused hlimit hlt]

theorem reallocate_refused (hb : a.block? h = some b) (hgrow : b.size < size) (hlimit : a.limit? = some limit)
    (hlt : limit < a.allocatedBytes.toNat + (size - b.size)) :
    reallocate h size a = .error (.error (.outOfMemory (size - b.size) limit)) a := by
  simp only [reallocate, hb, if_pos hgrow, reserve_refused hlimit hlt]

/-- A new block is one of zeros under a handle that named none, if the limit allows it. What is not addressable need not
    be had. -/
theorem allocate_cases (a : Arena) (size : Nat) :
    (∃ limit, a.limit? = some limit ∧ limit < a.allocatedBytes.toNat + size ∧
      allocate size a = .error (.error (.outOfMemory size limit)) a) ∨
    (∃ a', allocate size a = .ok a.nextHandle a' ∧
      Becomes a a' (Function.update a.block? a.nextHandle (some (Block.fresh size)))) ∨
    ∃ x a', Block.addressable < size ∧ allocate size a = .error (.abort x) a' ∧ a'.block? = a.block? := by
  rcases reserve_cases a size with ⟨limit, hlimit, hlt, hres⟩ | hres
  · exact Or.inl ⟨limit, hlimit, hlt, by simp only [allocate, hres]⟩
  rcases Block.zeros_cases size with hroom | ⟨x, hnone, hsize⟩
  · refine Or.inr (Or.inl ⟨_, by simp only [allocate, hres, hroom]; rfl, ?_⟩)
    refine becomes_append _ ?_ (by rw [Block.size_fresh]; rfl)
    rw [Block.size_fresh]
    exact Block.le_capacityFor size
  · refine Or.inr (Or.inr ⟨x, _, hsize, by simp only [allocate, hres, hnone]; rfl, ?_⟩)
    exact block?_append_eq.trans (Function.update_eq_self_iff.mpr block?_nextHandle.symm)

/-- A block that moves is given back, and another one is made. -/
theorem becomes_moved (bytes : UInt64) (hb : a.block? h = some b)
    (hbytes : b.size ≤ b.capacity → bytes + UInt64.ofNat b.size = a.allocatedBytes + UInt64.ofNat size) :
    Becomes a
      { (a.replace h none).append (some { b.resize size with capacity := Block.capacityFor size }) with
        allocatedBytes := bytes
        allocations := a.allocations + 1
        releases := a.releases + 1 }
      (Function.update (Function.update a.block? h none) a.nextHandle
        (some { b.resize size with capacity := Block.capacityFor size })) where
  block? := by
    have hnext : (a.replace h none).nextHandle = a.nextHandle := by simp [nextHandle, replace]
    rw [← block?_replace_eq hb, ← hnext]
    exact block?_append_eq
  limit? := rfl
  sound ha := by
    have hsize : ({ b.resize size with capacity := Block.capacityFor size } : Block).size = size :=
      Block.size_resize b size
    refine ((becomes_release hb).trans (becomes_append bytes ?_ ?_)).sound ha
    · rw [hsize]
      exact Block.le_capacityFor size
    · rw [hsize]
      show bytes = a.allocatedBytes - UInt64.ofNat b.size + UInt64.ofNat size
      have := hbytes (ha.room hb)
      grind

/-- A block that is resized stays where it is if it has the room, and moves otherwise. Either way its leading bytes
    are kept. What is not addressable cannot be moved to. -/
theorem reallocate_cases (size : Nat) (hb : a.block? h = some b) :
    (∃ limit, a.limit? = some limit ∧ b.size < size ∧ limit < a.allocatedBytes.toNat + (size - b.size) ∧
      reallocate h size a = .error (.error (.outOfMemory (size - b.size) limit)) a) ∨
    (size ≤ b.capacity ∧ ∃ a', reallocate h size a = .ok h a' ∧
      Becomes a a' (Function.update a.block? h (some (b.resize size)))) ∨
    (b.capacity < size ∧ ∃ a', reallocate h size a = .ok a.nextHandle a' ∧
      Becomes a a' (Function.update (Function.update a.block? h none) a.nextHandle
        (some { b.resize size with capacity := Block.capacityFor size }))) ∨
    ∃ x a', Block.addressable < size ∧ reallocate h size a = .error (.abort x) a' ∧ b.capacity < size ∧
      a'.block? = Function.update a.block? h none := by
  -- What is reserved before the block stays or moves.
  have hreserve : (∃ limit, a.limit? = some limit ∧ b.size < size ∧
        limit < a.allocatedBytes.toNat + (size - b.size) ∧
        (if b.size < size then a.reserve (size - b.size) else .ok a) = .error (.outOfMemory (size - b.size) limit)) ∨
      ∃ bytes, (if b.size < size then a.reserve (size - b.size) else .ok a) = .ok { a with allocatedBytes := bytes } ∧
        bytes + UInt64.ofNat b.size = a.allocatedBytes + UInt64.ofNat (max b.size size) := by
    by_cases hgrow : b.size < size
    · rw [if_pos hgrow]
      rcases reserve_cases a (size - b.size) with ⟨limit, hlimit, hlt, hres⟩ | hres
      · exact Or.inl ⟨limit, hlimit, hgrow, hlt, hres⟩
      · refine Or.inr ⟨_, hres, ?_⟩
        rw [UInt64.add_assoc, ← UInt64.ofNat_add, Nat.sub_add_cancel (Nat.le_of_lt hgrow),
          Nat.max_eq_right (Nat.le_of_lt hgrow)]
    · rw [if_neg hgrow]
      exact Or.inr ⟨a.allocatedBytes, rfl, by rw [Nat.max_eq_left (Nat.le_of_not_lt hgrow)]⟩
  rcases hreserve with ⟨limit, hlimit, hgrow, hlt, hres⟩ | ⟨bytes, hres, hbytes⟩
  · exact Or.inl ⟨limit, hlimit, hgrow, hlt, by simp only [reallocate, hb, hres]⟩
  by_cases hle : size ≤ b.capacity
  · refine Or.inr (Or.inl ⟨hle, _, by simp only [reallocate, hb, hres, if_pos hle]; rfl, ?_⟩)
    refine becomes_replace (bytes - UInt64.ofNat (b.size - size)) hb (fun _ => by rw [Block.size_resize]; exact hle) ?_
    have hsum : UInt64.ofNat (b.size - size) + UInt64.ofNat size = UInt64.ofNat (max b.size size) := by
      rw [← UInt64.ofNat_add]
      congr 1
      omega
    rw [Block.size_resize]
    grind
  · rcases Block.zeros_cases size with hroom | ⟨x, hnone, hsize⟩
    · refine Or.inr (Or.inr (Or.inl ⟨by omega, _, by
        simp only [reallocate, hb, hres, if_neg hle, move, hroom]; rfl, ?_⟩))
      refine becomes_moved bytes hb fun _ => ?_
      rwa [Nat.max_eq_right (by omega)] at hbytes
    · refine Or.inr (Or.inr (Or.inr ⟨x, _, hsize, by
        simp only [reallocate, hb, hres, if_neg hle, move, hnone]; rfl, by omega, ?_⟩))
      exact block?_replace_eq hb

theorem release_eq (hb : a.block? h = some b) :
    ∃ a', release h a = .ok () a' ∧ Becomes a a' (Function.update a.block? h none) :=
  ⟨_, by simp only [release, hb], becomes_release hb⟩

theorem read_eq {offset length : Nat} (hb : a.block? h = some b) (hin : offset + length ≤ b.size) :
    a.read h offset length = .ok ((b.toList.drop offset).take length) := by
  simp only [read, access, hb, if_pos hin, Except.map, Block.slice_eq]

theorem write_eq {offset : Nat} {data : Bytes} (hb : a.block? h = some b)
    (hin : offset + data.length ≤ b.size) :
    ∃ a', write h offset data a = .ok () a' ∧
      Becomes a a' (Function.update a.block? h (some (b.overwrite offset data))) := by
  refine ⟨_, by simp only [write, access, hb, if_pos hin]; rfl, ?_⟩
  refine becomes_replace a.allocatedBytes hb ?_ ?_
  · rw [Block.size_overwrite hin]
    exact id
  · rw [Block.size_overwrite hin]

end Arena

end RecordStore
