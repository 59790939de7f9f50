import RecordStore.Proofs.Arena.Blocks
import RecordStore.Proofs.Lockstep
import RecordStore.Record

/-! # Twin memories

Two memories count their handles from different numbers on. As long as the blocks from there on are the same, and so are
the bytes in use, the limit and the planned faults, nobody who knows no other handles can tell one from the other: each
call does the same in both, and names the same block by the handle that it has there. -/

namespace RecordStore

open RecordStore.Action

/-- From `p` and `p'` on, the handles have the same place in the order in which they are given out. -/
def Handle.Twin (p p' : Nat) (h h' : Handle) : Prop := ∃ n, h = ⟨p + n⟩ ∧ h' = ⟨p' + n⟩

variable {p p' : Nat} {h h' g g' : Handle} {b : Block} {b? : Option Block}

theorem Handle.Twin.eq_iff (hh : h.Twin p p' h') (hg : g.Twin p p' g') : g = h ↔ g' = h' := by
  obtain ⟨n, rfl, rfl⟩ := hh
  obtain ⟨m, rfl, rfl⟩ := hg
  simp only [Handle.mk.injEq, Nat.add_left_cancel_iff]

namespace Arena

/-- From `p` and `p'` on, two arenas are the same. -/
structure Twins (p p' : Nat) (a a' : Arena) : Prop where
  /-- As many handles have been given out. -/
  next : Handle.Twin p p' a.nextHandle a'.nextHandle
  block? : ∀ h h', Handle.Twin p p' h h' → a.block? h = a'.block? h'
  allocatedBytes : a.allocatedBytes = a'.allocatedBytes
  limit? : a.limit? = a'.limit?

namespace Twins

variable {a a' : Arena}

/-! ### Parts of the calls -/

theorem withBytes (ha : Twins p p' a a') (allocatedBytes : UInt64) :
    Twins p p' { a with allocatedBytes } { a' with allocatedBytes } := ⟨ha.next, ha.block?, rfl, ha.limit?⟩

theorem reserve (ha : Twins p p' a a') (delta : Nat) :
    (∃ e, a.reserve delta = .error e ∧ a'.reserve delta = .error e) ∨
      ∃ allocatedBytes, a.reserve delta = .ok { a with allocatedBytes } ∧
        a'.reserve delta = .ok { a' with allocatedBytes } := by
  unfold Arena.reserve
  rw [← ha.limit?, ← ha.allocatedBytes]
  cases a.limit? with
  | none => exact Or.inr ⟨_, rfl, rfl⟩
  | some limit =>
    dsimp only
    split
    · exact Or.inr ⟨_, rfl, rfl⟩
    · exact Or.inl ⟨_, rfl, rfl⟩

theorem unreserve (ha : Twins p p' a a') (delta : Nat) : Twins p p' (a.unreserve delta) (a'.unreserve delta) :=
  ⟨ha.next, ha.block?, congrArg (· - UInt64.ofNat delta) ha.allocatedBytes, ha.limit?⟩

theorem replace (ha : Twins p p' a a') (hh : h.Twin p p' h') (hb : a.block? h = some b) (b? : Option Block) :
    Twins p p' (a.replace h b?) (a'.replace h' b?) where
  next := by
    have hsize {a : Arena} {h : Handle} : (a.replace h b?).nextHandle = a.nextHandle :=
      congrArg Handle.mk Array.size_setIfInBounds
    rw [hsize, hsize]
    exact ha.next
  block? g g' hg := by
    rw [block?_replace hb, block?_replace ((ha.block? h h' hh).symm.trans hb)]
    exact ite_congr (propext (hh.eq_iff hg)) (fun _ => rfl) fun _ => ha.block? g g' hg
  allocatedBytes := ha.allocatedBytes
  limit? := ha.limit?

theorem append (ha : Twins p p' a a') (b? : Option Block) : Twins p p' (a.append b?) (a'.append b?) where
  next := by
    obtain ⟨n, hn, hn'⟩ := ha.next
    refine ⟨n + 1, ?_, ?_⟩
    · rw [nextHandle, Arena.append, Array.size_push, Handle.mk.inj hn, Nat.add_assoc]
    · rw [nextHandle, Arena.append, Array.size_push, Handle.mk.inj hn', Nat.add_assoc]
  block? g g' hg := by
    rw [block?_append, block?_append]
    exact ite_congr (propext (ha.next.eq_iff hg)) (fun _ => rfl) fun _ => ha.block? g g' hg
  allocatedBytes := ha.allocatedBytes
  limit? := ha.limit?

/-- What was ever made and given back need not be the same. -/
theorem recount (ha : Twins p p' a a') (allocations releases allocations' releases' : Nat) :
    Twins p p' { a with allocations, releases } { a' with allocations := allocations', releases := releases' } :=
  ⟨ha.next, ha.block?, ha.allocatedBytes, ha.limit?⟩

end Twins

/-! ### The calls -/

theorem allocate_inStep (size : Nat) : InStep (Twins p p') (Handle.Twin p p') (allocate size) (allocate size) := by
  intro a a' ha
  rcases ha.reserve size with ⟨e, hres, hres'⟩ | ⟨bytes, hres, hres'⟩
  · simp only [allocate, hres, hres']
    exact .error rfl ha
  · have hc := ha.withBytes bytes
    simp only [allocate, hres, hres']
    cases Block.zeros size with
    | error x => exact .error rfl (hc.append none)
    | ok b => exact .ok hc.next ((hc.append (some b)).recount ..)

theorem move_inStep {a a' : Arena} (ha : Twins p p' a a') (hh : h.Twin p p' h') (hb : a.block? h = some b)
    (size : Nat) : Agree (Twins p p') (Handle.Twin p p') (move h b size a) (move h' b size a') := by
  unfold move
  cases Block.zeros size with
  | error x => exact .error rfl (ha.replace hh hb none)
  | ok room => exact .ok ha.next (((ha.replace hh hb none).append _).recount ..)

theorem reallocate_inStep (hh : h.Twin p p' h') (size : Nat) :
    InStep (Twins p p') (Handle.Twin p p') (reallocate h size) (reallocate h' size) := by
  intro a a' ha
  unfold reallocate
  rw [← ha.block? h h' hh]
  cases hb : a.block? h with
  | none => exact .error rfl ha
  | some b =>
    have hrest {c c' : Arena} (hc : Twins p p' c c') (hb : c.block? h = some b) :
        Agree (Twins p p') (Handle.Twin p p')
          (if size ≤ b.capacity then .ok h ((c.replace h (some (b.resize size))).unreserve (b.size - size))
            else move h b size c)
          (if size ≤ b.capacity then .ok h' ((c'.replace h' (some (b.resize size))).unreserve (b.size - size))
            else move h' b size c') := by
      split
      · exact .ok hh ((hc.replace hh hb _).unreserve _)
      · exact move_inStep hc hh hb size
    by_cases hgrows : b.size < size
    · simp only [hgrows, if_true]
      rcases ha.reserve (size - b.size) with ⟨e, hres, hres'⟩ | ⟨bytes, hres, hres'⟩
      · simp only [hres, hres']
        exact .error rfl ha
      · simp only [hres, hres']
        exact hrest (ha.withBytes bytes) hb
    · simp only [hgrows, if_false]
      exact hrest ha hb

theorem release_inStep (hh : h.Twin p p' h') : InStep (Twins p p') Eq (release h) (release h') := by
  intro a a' ha
  unfold release
  rw [← ha.block? h h' hh]
  cases hb : a.block? h with
  | none => exact .error rfl ha
  | some b => exact .ok rfl (((ha.replace hh hb none).unreserve b.size).recount ..)

theorem access_inStep (hh : h.Twin p p' h') {a a' : Arena} (ha : Twins p p' a a') (offset length : Nat) :
    (∃ e e', a.access h offset length = .error e ∧ a'.access h' offset length = .error e' ∧ e.unnamed = e'.unnamed) ∨
      ∃ b, a.block? h = some b ∧ a.access h offset length = .ok b ∧ a'.access h' offset length = .ok b := by
  unfold access
  rw [← ha.block? h h' hh]
  cases hb : a.block? h with
  | none => exact Or.inl ⟨_, _, rfl, rfl, rfl⟩
  | some b =>
    dsimp only
    split
    · exact Or.inr ⟨b, rfl, rfl, rfl⟩
    · exact Or.inl ⟨_, _, rfl, rfl, rfl⟩

theorem write_inStep (hh : h.Twin p p' h') (offset : Nat) (data : Bytes) :
    InStep (Twins p p') Eq (write h offset data) (write h' offset data) := by
  intro a a' ha
  unfold write
  rcases access_inStep hh ha offset data.length with ⟨e, e', he, he', hsame⟩ | ⟨b, hb, hok, hok'⟩
  · simp only [he, he']
    exact .error (congrArg Failure.error hsame) ha
  · simp only [hok, hok']
    exact .ok rfl (ha.replace hh hb _)

end Arena

namespace Memory

/-- Two memories whose arenas are the same from `p` and `p'` on, with the same planned faults. -/
structure Twins (p p' : Nat) (m m' : Memory) : Prop where
  arena : m.arena.Twins p p' m'.arena
  faults : m.faults = m'.faults

/-- What an arena does in lockstep, a memory does, as long as it is not planned to fail and also when it is. -/
theorem call_inStep {α α' : Type} {A : α → α' → Prop} {x : Action Arena α} {x' : Action Arena α'}
    (hx : InStep (Arena.Twins p p') A x x') (c : Call) : InStep (Twins p p') A (call c x) (call c x') := by
  rintro ⟨a, f⟩ ⟨a', _⟩ ⟨ha, rfl⟩
  unfold call
  dsimp only
  split
  · exact .error rfl ⟨ha, rfl⟩
  · rcases hx.cases ha with ⟨v, v', c, c', hrun, hrun', hv, hc⟩ | ⟨e, e', c, c', hrun, hrun', he, hc⟩
    · simp only [hrun, hrun']
      exact .ok hv ⟨hc, rfl⟩
    · simp only [hrun, hrun']
      exact .error he ⟨hc, rfl⟩

theorem allocate_inStep (size : Nat) : InStep (Twins p p') (Handle.Twin p p') (allocate size) (allocate size) :=
  call_inStep (Arena.allocate_inStep size) _

section Calls
variable (hh : h.Twin p p' h')
include hh

theorem reallocate_inStep (size : Nat) :
    InStep (Twins p p') (Handle.Twin p p') (reallocate h size) (reallocate h' size) :=
  call_inStep (Arena.reallocate_inStep hh size) _

theorem release_inStep : InStep (Twins p p') Eq (release h) (release h') := call_inStep (Arena.release_inStep hh) _

theorem write_inStep (offset : Nat) (data : Bytes) : InStep (Twins p p') Eq (write h offset data) (write h' offset data) :=
  call_inStep (Arena.write_inStep hh offset data) _

theorem read_inStep (offset length : Nat) : InStep (Twins p p') Eq (read h offset length) (read h' offset length) := by
  refine call_inStep (fun a a' ha => ?_) _
  unfold Arena.read
  rcases Arena.access_inStep hh ha offset length with ⟨e, e', he, he', hsame⟩ | ⟨b, -, hok, hok'⟩
  · rw [he, he']
    exact .error (congrArg Failure.error hsame) ha
  · rw [hok, hok']
    exact .ok rfl ha

theorem readWord_inStep (offset width : Nat) :
    InStep (Twins p p') Eq (readWord h offset width) (readWord h' offset width) :=
  (read_inStep hh offset width).bind_same fun _ => .pure rfl

theorem readUInt32_inStep (offset : Nat) : InStep (Twins p p') Eq (readUInt32 h offset) (readUInt32 h' offset) :=
  (readWord_inStep hh offset 4).bind_same fun _ => .pure rfl

theorem readUInt64_inStep (offset : Nat) : InStep (Twins p p') Eq (readUInt64 h offset) (readUInt64 h' offset) :=
  (readWord_inStep hh offset 8).bind_same fun _ => .pure rfl

end Calls

end Memory

namespace Record

/-- The same record, in a block of each memory. -/
structure Twin (p p' : Nat) (r r' : Record) : Prop where
  payload : r.payload = r'.payload
  createdAt : r.createdAt = r'.createdAt
  ttl : r.ttl = r'.ttl
  handle : r.handle.Twin p p' r'.handle

variable (hh : h.Twin p p' h')

section Reading
include hh

theorem load_inStep : InStep (Memory.Twins p p') (Twin p p') (load h) (load h') :=
  (Memory.readWord_inStep hh _ _).bind_same fun _ => (Memory.readUInt64_inStep hh _).bind_same fun _ =>
    (Memory.readUInt32_inStep hh _).bind_same fun _ => (Memory.read_inStep hh _ _).bind_same fun _ =>
      .pure ⟨rfl, rfl, rfl, hh⟩

theorem payloadAt_inStep : InStep (Memory.Twins p p') Eq (payloadAt h) (payloadAt h') :=
  (Memory.readWord_inStep hh _ _).bind_same fun _ => Memory.read_inStep hh _ _

theorem sizeAt_inStep : InStep (Memory.Twins p p') Eq (sizeAt h) (sizeAt h') :=
  (Memory.readWord_inStep hh _ _).bind_same fun _ => .pure rfl

theorem ttlAt_inStep : InStep (Memory.Twins p p') Eq (ttlAt h) (ttlAt h') := Memory.readUInt32_inStep hh _

theorem isOverAt_inStep (now : UInt64) : InStep (Memory.Twins p p') Eq (isOverAt h now) (isOverAt h' now) :=
  (Memory.readUInt64_inStep hh _).bind_same fun _ => (ttlAt_inStep hh).bind_same fun _ => .pure rfl

theorem writeTo_inStep (r : Record) : InStep (Memory.Twins p p') Eq (r.writeTo h) (r.writeTo h') := by
  have hwrites : InStep (Memory.Twins p p') Eq
      (do Memory.writeWord h lengthOffset 4 r.payload.length
          Memory.writeUInt64 h createdAtOffset r.createdAt
          Memory.writeUInt32 h ttlOffset r.ttl
          Memory.write h payloadOffset r.payload)
      (do Memory.writeWord h' lengthOffset 4 r.payload.length
          Memory.writeUInt64 h' createdAtOffset r.createdAt
          Memory.writeUInt32 h' ttlOffset r.ttl
          Memory.write h' payloadOffset r.payload) :=
    (Memory.write_inStep hh _ _).bind_same fun _ => (Memory.write_inStep hh _ _).bind_same fun _ =>
      (Memory.write_inStep hh _ _).bind_same fun _ => Memory.write_inStep hh _ _
  unfold writeTo
  dsimp only
  split
  · exact (InStep.fail (A := Eq) rfl).bind_same fun _ => hwrites
  · exact hwrites

theorem storeOver_inStep (r : Record) : InStep (Memory.Twins p p') (Twin p p') (r.storeOver h) (r.storeOver h') :=
  (Memory.reallocate_inStep hh r.size).bind fun _ _ hg => (writeTo_inStep hg r).bind_same fun _ =>
    .pure ⟨rfl, rfl, rfl, hg⟩

end Reading

theorem store_inStep (r : Record) : InStep (Memory.Twins p p') (Twin p p') r.store r.store := by
  refine (Memory.allocate_inStep r.size).bind fun h h' hh => (writeTo_inStep hh r).attempt.bind fun result result' hr => ?_
  cases hr with
  | ok ha => exact .pure ⟨rfl, rfl, rfl, hh⟩
  | error he => exact (Memory.release_inStep hh).attempt.bind fun _ _ _ => .fail he

end Record

end RecordStore
