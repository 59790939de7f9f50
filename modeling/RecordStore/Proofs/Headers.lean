import RecordStore.Proofs.Layout
import RecordStore.Proofs.Reading

/-! # Reads of a header

The payload, the size and the end of a record are also read on their own, from as much of its block as that takes. A
block may hold any bytes, and its header may tell a length that it does not have. The main statement says that each of
these reads agrees with the one of the whole record, wherever the block ends. -/

namespace RecordStore.Record

open RecordStore.Action (final)

variable {m : Memory} {h : Handle} {b : Block}

/-- How the reads of a block come out, whatever bytes it holds. -/
structure ReadsAlike (m : Memory) (h : Handle) (b : Block) : Prop where
  /-- The record can be read just if its block has a header and the length that is told there. -/
  load_iff : (∃ r m', load h m = .ok r m') ↔ 16 ≤ b.size ∧ 16 + headerLength b.toList ≤ b.size
  payload : ∀ r m', load h m = .ok r m' → payloadAt h m = .ok r.payload m
  size : ∀ r m', load h m = .ok r m' → sizeAt h m = .ok (16 + r.payload.length) m
  isOver : ∀ r m', load h m = .ok r m' → ∀ now, isOverAt h now m = .ok (r.isOver now) m
  /-- Otherwise something that was looked for does not lie in the block. -/
  outOfBounds : (∀ r m', load h m ≠ .ok r m') → ∃ offset length, b.size < offset + length ∧
    load h m = .error (.error (.outOfBounds h offset length b.size)) m
  /-- The payload cannot be read where the record cannot, but its size can be told from the first field and its end
      from the header. -/
  payload_iff : (∃ p m', payloadAt h m = .ok p m') ↔ 16 + headerLength b.toList ≤ b.size
  size_iff : (∃ n m', sizeAt h m = .ok n m') ↔ 4 ≤ b.size
  isOver_iff : ∀ now, (∃ ended m', isOverAt h now m = .ok ended m') ↔ 16 ≤ b.size

/-- A read changes no block, and nothing at all if no read is planned to fail. -/
structure ReadsOnly (h : Handle) : Prop where
  load (m : Memory) : m.Unwritten (final (load h) m)
  payloadAt (m : Memory) : m.Unwritten (final (payloadAt h) m)
  sizeAt (m : Memory) : m.Unwritten (final (sizeAt h) m)
  isOverAt (now : UInt64) (m : Memory) : m.Unwritten (final (isOverAt h now) m)

theorem readsOnly (h : Handle) : ReadsOnly h where
  load := (tame_load h).moves
  payloadAt := (tame_payloadAt h).moves
  sizeAt := (tame_sizeAt h).moves
  isOverAt now := (tame_isOverAt h now).moves

theorem record?_of_load {r : Record} {m' : Memory} (hm : m.Legible) (hb : m.arena.block? h = some b)
    (hload : load h m = .ok r m') :
    payloadOffset + headerLength b.toList ≤ b.size ∧ m.arena.record? h = some r := by
  have hlook := looks_load hm hb
  have hle := layout_inside.mp (hlook.ok_iff.mp ⟨r, m', hload⟩)
  have hr : m.arena.record? h = some (told h b.toList) := by
    rw [Arena.record?, hb, Option.bind_some, decode?_eq_told, if_pos (hle.trans (Block.size_eq_length b).le)]
  cases hload.symm.trans (load_ok hm hr)
  exact ⟨hle, hr⟩

theorem readsAlike (hm : m.Legible) (hb : m.arena.block? h = some b) : ReadsAlike m h b where
  load_iff := by
    rw [(looks_load hm hb).ok_iff, layout_inside, payloadOffset]
    omega
  payload r m' hload := payloadAt_ok hm (record?_of_load hm hb hload).2
  size r m' hload := sizeAt_ok hm (record?_of_load hm hb hload).2
  isOver r m' hload := isOverAt_ok hm (record?_of_load hm hb hload).2
  outOfBounds hnone := by
    have hlook := looks_load hm hb
    obtain ⟨⟨offset, length⟩, -, hout, hfailed⟩ := hlook.error fun hin => hnone _ _ (hlook.ok hin)
    exact ⟨offset, length, hout, hfailed⟩
  payload_iff := by
    rw [(looks_payloadAt hm hb).ok_iff]
    simp only [List.forall_mem_cons, lengthOffset, payloadOffset]
    simp
    omega
  size_iff := by
    rw [(looks_sizeAt hm hb).ok_iff]
    simp [lengthOffset]
  isOver_iff now := by
    rw [(looks_isOverAt hm hb now).ok_iff]
    simp [createdAtOffset, ttlOffset]
    omega

/-- Whatever bytes a block holds, reads of its header agree with the read of the whole record; the record can be read
    just if the block has the length that the header tells, otherwise it is reported that it has not. None of the reads
    changes the memory. -/
theorem header_reads_agree (hm : m.Legible) (hb : m.arena.block? h = some b) : ReadsAlike m h b ∧ ReadsOnly h :=
  ⟨readsAlike hm hb, readsOnly h⟩

/-- The same header, which tells one byte of payload and ends after ten milliseconds, before more bytes than that and
    before none; and a block that does not even hold a length. -/
def unevenBlocks : Memory where
  arena.blocks := #[none,
    some ⟨⟨#[1, 0, 0, 0, 5, 0, 0, 0, 0, 0, 0, 0, 10, 0, 0, 0, 7, 8, 9]⟩, 32⟩,
    some ⟨⟨#[1, 0, 0, 0, 5, 0, 0, 0, 0, 0, 0, 0, 10, 0, 0, 0]⟩, 16⟩,
    some ⟨⟨#[1, 0, 0]⟩, 16⟩]

theorem header_reads_of_uneven_blocks :
    (∃ r, load ⟨1⟩ unevenBlocks = .ok r unevenBlocks ∧ payloadAt ⟨1⟩ unevenBlocks = .ok r.payload unevenBlocks ∧
      sizeAt ⟨1⟩ unevenBlocks = .ok 17 unevenBlocks ∧ isOverAt ⟨1⟩ 15 unevenBlocks = .ok true unevenBlocks) ∧
    (∃ offset length, 16 < offset + length ∧
      load ⟨2⟩ unevenBlocks = .error (.error (.outOfBounds ⟨2⟩ offset length 16)) unevenBlocks) ∧
    (∃ ended m, isOverAt ⟨2⟩ 15 unevenBlocks = .ok ended m) ∧
    ¬ ∃ n m, sizeAt ⟨3⟩ unevenBlocks = .ok n m := by
  have hlong := (header_reads_agree (m := unevenBlocks) (h := ⟨1⟩) rfl rfl).1
  have hcut := (header_reads_agree (m := unevenBlocks) (h := ⟨2⟩) rfl rfl).1
  have hshort := (header_reads_agree (m := unevenBlocks) (h := ⟨3⟩) rfl rfl).1
  have hload : load ⟨1⟩ unevenBlocks = .ok ⟨[7], 5, 10, ⟨1⟩⟩ unevenBlocks := rfl
  refine ⟨⟨_, hload, hlong.payload _ _ hload, hlong.size _ _ hload, hlong.isOver _ _ hload 15⟩, hcut.outOfBounds ?_,
    (hcut.isOver_iff 15).mpr (by decide), fun hsize => ?_⟩
  · intro r m' hcutload
    exact absurd (hcut.load_iff.mp ⟨r, m', hcutload⟩).2 (by decide)
  · exact absurd (hshort.size_iff.mp hsize) (by decide)

end RecordStore.Record
