import RecordStore.Proofs.Bytes
import RecordStore.Proofs.Memory
import RecordStore.Record

/-! # Records in blocks

A block holds a record if its bytes are the header and the payload of it and nothing else. Each read looks at parts of
a block, and answers if all of them lie in it. The reads of a record all tell the same record, and change nothing.
Writing a record makes its block hold it. -/

namespace RecordStore

namespace Record

/-- The length of the payload that the header in the bytes gives. -/
def headerLength (b : Bytes) : Nat := Bytes.toNat (b.take 4)

/-- The record that bytes tell, if they reach as far as the length in the header says. -/
def decode? (h : Handle) (b : Bytes) : Option Record :=
  if payloadOffset + headerLength b ≤ b.length then
    some
      { payload := (b.drop payloadOffset).take (headerLength b)
        createdAt := UInt64.ofNat (Bytes.toNat ((b.drop createdAtOffset).take 8))
        ttl := UInt32.ofNat (Bytes.toNat ((b.drop ttlOffset).take 4))
        handle := h }
  else none

/-- The record that bytes tell, wherever they end. -/
def told (h : Handle) (b : Bytes) : Record where
  payload := (b.drop payloadOffset).take (headerLength b)
  createdAt := UInt64.ofNat (Bytes.toNat ((b.drop createdAtOffset).take 8))
  ttl := UInt32.ofNat (Bytes.toNat ((b.drop ttlOffset).take 4))
  handle := h

theorem decode?_eq_told (h : Handle) (b : Bytes) :
    decode? h b = if payloadOffset + headerLength b ≤ b.length then some (told h b) else none := rfl

theorem length_encode (r : Record) : r.encode.length = r.size := by
  simp only [encode, size, sizeFor, payloadOffset, List.length_append, Bytes.length_littleEndian]

/-- A header tells its own length, stamp and lifetime, whatever follows it. -/
theorem decode?_header {length : Nat} {createdAt : UInt64} {ttl : Lifetime} {payload : Bytes} {h : Handle}
    (hlength : length < lengthLimit) :
    decode? h (Bytes.littleEndian 4 length ++ Bytes.littleEndian 8 createdAt.toNat ++ Bytes.littleEndian 4 ttl.toNat ++
      payload) =
      if length ≤ payload.length then some ⟨payload.take length, createdAt, ttl, h⟩ else none := by
  generalize hb : Bytes.littleEndian 4 length ++ Bytes.littleEndian 8 createdAt.toNat ++
    Bytes.littleEndian 4 ttl.toNat ++ payload = b
  have hheader : headerLength b = length := by
    have : b.take 4 = Bytes.littleEndian 4 length := by simp [← hb]
    rw [headerLength, this, Bytes.toNat_littleEndian hlength]
  have hcreated : UInt64.ofNat (Bytes.toNat ((b.drop createdAtOffset).take 8)) = createdAt := by
    have : (b.drop createdAtOffset).take 8 = Bytes.littleEndian 8 createdAt.toNat := by simp [← hb, createdAtOffset]
    rw [this, Bytes.toNat_littleEndian createdAt.toNat_lt, UInt64.ofNat_toNat]
  have httl : UInt32.ofNat (Bytes.toNat ((b.drop ttlOffset).take 4)) = ttl := by
    have : (b.drop ttlOffset).take 4 = Bytes.littleEndian 4 ttl.toNat := by
      rw [← hb, List.append_assoc, List.drop_left' (by simp [ttlOffset]), List.take_left' (by simp)]
    rw [this, Bytes.toNat_littleEndian ttl.toNat_lt, UInt32.ofNat_toNat]
  have hpayload : b.drop payloadOffset = payload := by
    rw [← hb, List.drop_left' (by simp [payloadOffset])]
  have hsize : b.length = payloadOffset + payload.length := by
    rw [← hb]
    simp [payloadOffset]
    omega
  simp only [decode?, hheader, hcreated, httl, hpayload, hsize, Nat.add_le_add_iff_left]

theorem decode?_encode {r : Record} (hfits : r.payload.length < lengthLimit) : decode? r.handle r.encode = some r := by
  rw [encode, decode?_header hfits, if_pos (Nat.le_refl _), List.take_length]

end Record

namespace Arena

variable {a : Arena} {h : Handle} {r : Record}

/-- The record in a block. -/
def record? (a : Arena) (h : Handle) : Option Record := (a.block? h).bind fun b => Record.decode? h b.toList

/-- The block of a record holds it and nothing else. -/
structure Holds (a : Arena) (r : Record) : Prop where
  fits : r.payload.length < Record.lengthLimit
  block : ∃ b, a.block? r.handle = some b ∧ b.toList = r.encode

theorem Holds.record? (hr : a.Holds r) : a.record? r.handle = some r := by
  obtain ⟨b, hb, hbytes⟩ := hr.block
  rw [Arena.record?, hb, Option.bind_some, hbytes, Record.decode?_encode hr.fits]

theorem record?_congr {a' : Arena} (h' : a'.block? h = a.block? h) : a'.record? h = a.record? h := by
  rw [record?, record?, h']

theorem Holds.congr {a' : Arena} (hr : a.Holds r) (h' : a'.block? r.handle = a.block? r.handle) : a'.Holds r :=
  ⟨hr.fits, h' ▸ hr.block⟩

end Arena

namespace Record

variable {m : Memory} {h : Handle} {r : Record}

theorem handle_of_record? {a : Arena} (hr : a.record? h = some r) : r.handle = h := by
  unfold Arena.record? at hr
  obtain ⟨b, -, hb⟩ := Option.bind_eq_some_iff.mp hr
  unfold decode? at hb
  split at hb <;> cases hb
  rfl

/-! ### Looking at parts of a block -/

section Looks
variable {α β : Type} {b : Block} {x : Action Memory α} {parts : List (Nat × Nat)} {v : α}

/-- Looks at parts of a block, each given by its offset and length, one after the other. Where all of them lie in the
    block there is an answer, otherwise the first that does not is reported. The memory stays as it is. -/
def Looks (m : Memory) (h : Handle) (b : Block) (x : Action Memory α) (parts : List (Nat × Nat)) (v : α) : Prop :=
  x m =
    match parts.find? fun part => b.size < part.1 + part.2 with
    | none => .ok v m
    | some (offset, length) => .error (.error (.outOfBounds h offset length b.size)) m

namespace Looks

theorem pure (v : α) : Looks m h b (Pure.pure v) [] v := rfl

theorem read_bind {offset length : Nat} {f : Bytes → Action Memory α} (hm : m.Legible)
    (hb : m.arena.block? h = some b) (hf : Looks m h b (f ((b.toList.drop offset).take length)) parts v) :
    Looks m h b (Memory.read h offset length >>= f) ((offset, length) :: parts) v := by
  by_cases hin : offset + length ≤ b.size
  · rw [Looks, Action.bind_ok (Memory.read_ok hm hb hin), hf, List.find?_cons_of_neg (by simpa using hin)]
  · rw [Looks, Action.bind_error (Memory.read_outOfBounds hm hb hin),
      List.find?_cons_of_pos (by simpa using Nat.lt_of_not_le hin)]

theorem readWord_bind {offset width : Nat} {f : Nat → Action Memory α} (hm : m.Legible)
    (hb : m.arena.block? h = some b)
    (hf : Looks m h b (f (Bytes.toNat ((b.toList.drop offset).take width))) parts v) :
    Looks m h b (Memory.readWord h offset width >>= f) ((offset, width) :: parts) v := by
  rw [Memory.readWord, bind_assoc]
  exact read_bind hm hb hf

theorem ok (hx : Looks m h b x parts v) (hin : ∀ part ∈ parts, part.1 + part.2 ≤ b.size) : x m = .ok v m := by
  rw [hx, List.find?_eq_none.mpr fun part hpart => by simpa using hin part hpart]

/-- What fails reports a part that does not lie in the block. -/
theorem error (hx : Looks m h b x parts v) (hout : ¬ ∀ part ∈ parts, part.1 + part.2 ≤ b.size) :
    ∃ part ∈ parts, b.size < part.1 + part.2 ∧
      x m = .error (.error (.outOfBounds h part.1 part.2 b.size)) m := by
  cases hfirst : parts.find? fun part => b.size < part.1 + part.2 with
  | none => exact absurd (fun part hpart => by simpa using List.find?_eq_none.mp hfirst part hpart) hout
  | some part =>
    refine ⟨part, List.mem_of_find?_eq_some hfirst, by simpa using List.find?_some hfirst, ?_⟩
    rw [hx, hfirst]

theorem ok_iff (hx : Looks m h b x parts v) :
    (∃ v m', x m = .ok v m') ↔ ∀ part ∈ parts, part.1 + part.2 ≤ b.size := by
  constructor
  · rintro ⟨v', m', hrun⟩
    by_contra hout
    obtain ⟨part, -, -, hfailed⟩ := hx.error hout
    cases hrun.symm.trans hfailed
  · exact fun hin => ⟨v, m, hx.ok hin⟩

end Looks

/-- The parts of a record in a block. -/
def layout (length : Nat) : List (Nat × Nat) :=
  [(lengthOffset, 4), (createdAtOffset, 8), (ttlOffset, 4), (payloadOffset, length)]

theorem layout_inside {length size : Nat} :
    (∀ part ∈ layout length, part.1 + part.2 ≤ size) ↔ payloadOffset + length ≤ size := by
  simp only [layout, lengthOffset, createdAtOffset, ttlOffset, payloadOffset, List.forall_mem_cons]
  constructor
  · exact fun ⟨_, _, _, hpayload, _⟩ => hpayload
  · intro hpayload
    exact ⟨by omega, by omega, by omega, hpayload, nofun⟩

/-- A look at no more than the parts of a record. -/
theorem Looks.ok_of_subset {length : Nat} (hx : Looks m h b x parts v) (hsub : parts ⊆ layout length)
    (hle : payloadOffset + length ≤ b.size) : x m = .ok v m :=
  hx.ok fun part hpart => layout_inside.mpr hle part (hsub hpart)

variable (hm : m.Legible) (hb : m.arena.block? h = some b)
include hm hb

theorem looks_load : Looks m h b (load h) (layout (headerLength b.toList)) (told h b.toList) := by
  simp only [load, Memory.readUInt64, Memory.readUInt32, bind_assoc, pure_bind]
  exact .readWord_bind hm hb (.readWord_bind hm hb (.readWord_bind hm hb (.read_bind hm hb (.pure _))))

theorem looks_payloadAt :
    Looks m h b (payloadAt h) [(lengthOffset, 4), (payloadOffset, headerLength b.toList)]
      (told h b.toList).payload := by
  rw [payloadAt]
  refine .readWord_bind hm hb ?_
  rw [← bind_pure (Memory.read _ _ _)]
  exact .read_bind hm hb (.pure _)

theorem looks_sizeAt : Looks m h b (sizeAt h) [(lengthOffset, 4)] (sizeFor (headerLength b.toList)) :=
  .readWord_bind hm hb (.pure _)

theorem looks_ttlAt : Looks m h b (ttlAt h) [(ttlOffset, 4)] (told h b.toList).ttl :=
  .readWord_bind hm hb (.pure _)

theorem looks_isOverAt (now : UInt64) :
    Looks m h b (isOverAt h now) [(createdAtOffset, 8), (ttlOffset, 4)] ((told h b.toList).isOver now) := by
  simp only [isOverAt, ttlAt, Memory.readUInt64, Memory.readUInt32, bind_assoc, pure_bind]
  exact .readWord_bind hm hb (.readWord_bind hm hb (.pure _))

end Looks

/-- A block that holds a record is long enough for each look at it. -/
theorem told_of_record? (hr : m.arena.record? h = some r) :
    ∃ b, m.arena.block? h = some b ∧ payloadOffset + headerLength b.toList ≤ b.size ∧ r = told h b.toList := by
  obtain ⟨b, hb, hbytes⟩ := Option.bind_eq_some_iff.mp hr
  rw [decode?_eq_told] at hbytes
  obtain ⟨hle, htold⟩ := Option.ite_none_right_eq_some.mp hbytes
  exact ⟨b, hb, hle.trans (Block.size_eq_length b).ge, (Option.some.inj htold).symm⟩

theorem length_payload_told {b : Bytes} (hle : payloadOffset + headerLength b ≤ b.length) :
    (told h b).payload.length = headerLength b := by
  rw [told, List.length_take, List.length_drop]
  omega

theorem load_ok (hm : m.Legible) (hr : m.arena.record? h = some r) : load h m = .ok r m := by
  obtain ⟨b, hb, hle, rfl⟩ := told_of_record? hr
  exact (looks_load hm hb).ok (layout_inside.mpr hle)

theorem payloadAt_ok (hm : m.Legible) (hr : m.arena.record? h = some r) : payloadAt h m = .ok r.payload m := by
  obtain ⟨b, hb, hle, rfl⟩ := told_of_record? hr
  exact (looks_payloadAt hm hb).ok_of_subset (by simp [layout]) hle

theorem payloadAt_dead (hm : m.Legible) (hb : m.arena.block? h = none) :
    payloadAt h m = .error (.error (.invalidHandle h)) m := by
  have hread : Memory.readWord h lengthOffset 4 m = .error (.error (.invalidHandle h)) m :=
    Action.bind_error (Memory.read_dead hm hb)
  exact Action.bind_error hread

theorem sizeAt_ok (hm : m.Legible) (hr : m.arena.record? h = some r) : sizeAt h m = .ok r.size m := by
  obtain ⟨b, hb, hle, rfl⟩ := told_of_record? hr
  rw [size, length_payload_told (hle.trans (Block.size_eq_length b).le)]
  exact (looks_sizeAt hm hb).ok_of_subset (by simp [layout]) hle

theorem ttlAt_ok (hm : m.Legible) (hr : m.arena.record? h = some r) : ttlAt h m = .ok r.ttl m := by
  obtain ⟨b, hb, hle, rfl⟩ := told_of_record? hr
  exact (looks_ttlAt hm hb).ok_of_subset (by simp [layout]) hle

theorem isOverAt_ok (hm : m.Legible) (hr : m.arena.record? h = some r) (now : UInt64) :
    isOverAt h now m = .ok (r.isOver now) m := by
  obtain ⟨b, hb, hle, rfl⟩ := told_of_record? hr
  exact (looks_isOverAt hm hb now).ok_of_subset (by simp [layout]) hle

/-! ### Writing -/

/-- The pieces that a record is written in, one after the other. -/
def pieces (r : Record) : List Bytes :=
  [Bytes.littleEndian 4 r.payload.length, Bytes.littleEndian 8 r.createdAt.toNat, Bytes.littleEndian 4 r.ttl.toNat,
    r.payload]

theorem flatten_pieces (r : Record) : r.pieces.flatten = r.encode := by
  simp [pieces, encode]

/-- Writes pieces one after the other, from `offset` on. -/
def writeAll (h : Handle) : (offset : Nat) → List Bytes → Action Memory Unit
  | _, [] => pure ()
  | offset, piece :: rest => do
    Memory.write h offset piece
    writeAll h (offset + piece.length) rest

theorem writeTo_eq (hfits : r.payload.length < lengthLimit) (h : Handle) (m : Memory) :
    r.writeTo h m = writeAll h 0 r.pieces m := by
  have hguard : ¬ lengthLimit ≤ r.payload.length := by omega
  simp only [writeTo, if_neg hguard, writeAll, pieces, Bytes.length_littleEndian, bind_pure_unit]
  rfl

theorem writeTo_rejected (hlong : lengthLimit ≤ r.payload.length) (h : Handle) (m : Memory) :
    r.writeTo h m = .error (.error (.invalidArgument (.payloadTooLong r.payload.length))) m := by
  simp only [writeTo, if_pos hlong]
  rfl

/-- The plan tells how many writes succeed before one fails, and one less after each. -/
theorem head?_pass {f : Faults} {n : Nat} (hdue : f.isDue .write = false) :
    (f.pass .write).write.head? = some n ↔ f.write.head? = some (n + 1) := by
  obtain ⟨allocate, reallocate, release, read, write⟩ := f
  cases write with
  | nil => simp [Faults.pass, Faults.gaps]
  | cons gap gaps =>
    cases gap with
    | zero => simp [Faults.isDue, Faults.gaps] at hdue
    | succ gap => simp [Faults.pass, Faults.gaps, Faults.setGaps, Faults.afterCall]

/-- While a block is written from its beginning on, its first bytes are new already and the others still old. It is
    written to the end, unless the plan lets a write fail on the way. -/
theorem writeAll_cases {data old : Bytes} {b : Block} (pieces : List Bytes) (offset : Nat)
    (hb : m.arena.block? h = some b) (hbytes : b.toList = data.take offset ++ old.drop offset)
    (hold : old.length = data.length) (hpieces : data.drop offset = pieces.flatten) (hin : offset ≤ data.length) :
    (∃ n < pieces.length, m.faults.write.head? = some n ∧ ∃ a f b',
      writeAll h offset pieces m = .error (.error Memory.plannedFault) ⟨a, f⟩ ∧
      b'.toList = data.take (offset + (pieces.take n).flatten.length) ++
        old.drop (offset + (pieces.take n).flatten.length) ∧
      m.arena.Becomes a (Function.update m.arena.block? h (some b'))) ∨
    ((∀ n < pieces.length, m.faults.write.head? ≠ some n) ∧ ∃ a f b', writeAll h offset pieces m = .ok () ⟨a, f⟩ ∧
      (m.faults.write = [] → f = m.faults) ∧ b'.toList = data ∧
      m.arena.Becomes a (Function.update m.arena.block? h (some b'))) := by
  induction pieces generalizing m b offset with
  | nil =>
    rw [List.flatten_nil, List.drop_eq_nil_iff] at hpieces
    refine Or.inr ⟨by simp, m.arena, m.faults, b, rfl, fun _ => rfl, ?_, Arena.Becomes.same hb⟩
    rw [hbytes, List.take_of_length_le hpieces, List.drop_of_length_le (hold ▸ hpieces), List.append_nil]
  | cons piece rest ih =>
    rw [List.flatten_cons] at hpieces
    have hlength := congrArg List.length hpieces
    rw [List.length_drop, List.length_append] at hlength
    have hsize : b.size = data.length := by
      rw [Block.size_eq_length, hbytes, List.length_append, List.length_take, List.length_drop, hold]
      omega
    have hroom : offset + piece.length ≤ b.size := by omega
    rcases Memory.write_cases hb hroom with ⟨hdue, hw⟩ | ⟨hdue, a, hw, hbecomes⟩
    · refine Or.inl ⟨0, by simp, of_decide_eq_true hdue, m.arena, _, b, Action.bind_error hw, ?_,
        Arena.Becomes.same hb⟩
      simpa using hbytes
    · have hrest : writeAll h offset (piece :: rest) m =
          writeAll h (offset + piece.length) rest ⟨a, m.faults.pass .write⟩ := Action.bind_ok hw
      have hnew : (b.overwrite offset piece).toList =
          data.take (offset + piece.length) ++ old.drop (offset + piece.length) := by
        have htake : (data.take offset).length = offset := by
          rw [List.length_take]
          omega
        rw [Block.toList_overwrite, hbytes, List.take_left' htake, List.drop_append, List.take_add, hpieces,
          List.take_left' rfl, htake, List.drop_of_length_le (by omega), List.nil_append, List.drop_drop]
        congr 2
        omega
      have hlater : data.drop (offset + piece.length) = rest.flatten := by
        rw [← List.drop_drop, hpieces, List.drop_left' rfl]
      have hblock : a.block? h = some (b.overwrite offset piece) := by
        rw [hbecomes.block?, Function.update_self]
      rcases ih (m := ⟨a, m.faults.pass .write⟩) (offset + piece.length) hblock hnew hlater (by omega) with
        ⟨n, hn, hplan, a', f, b', hrun, hbytes', hbecomes'⟩ | ⟨hplan, a', f, b', hrun, hkept, hbytes', hbecomes'⟩
      · have hall := hbecomes.trans hbecomes'
        rw [hbecomes.block?, Function.update_idem] at hall
        refine Or.inl ⟨n + 1, by simpa using hn, (head?_pass hdue).mp hplan, a', f, b', hrest.trans hrun, ?_, hall⟩
        rw [List.take_succ_cons, List.flatten_cons, List.length_append, ← Nat.add_assoc]
        exact hbytes'
      · have hall := hbecomes.trans hbecomes'
        rw [hbecomes.block?, Function.update_idem] at hall
        refine Or.inr ⟨fun n hn hplan' => ?_, a', f, b', hrest.trans hrun, fun hnone => ?_, hbytes', hall⟩
        · cases n with
          | zero => simp [Faults.isDue, Faults.gaps, hplan'] at hdue
          | succ n => exact hplan n (by simpa using hn) ((head?_pass hdue).mpr hplan')
        · have hpass : m.faults.pass .write = m.faults := by simp [Faults.pass, Faults.gaps, hnone]
          exact (hkept (by rw [hpass]; exact hnone)).trans hpass

theorem writeTo_ok {b : Block} (hm : m.Steady) (hb : m.arena.block? h = some b) (hsize : b.size = r.size)
    (hfits : r.payload.length < lengthLimit) :
    ∃ a b', r.writeTo h m = .ok () { m with arena := a } ∧ b'.toList = r.encode ∧
      m.arena.Becomes a (Function.update m.arena.block? h (some b')) := by
  have hold : b.toList.length = r.encode.length := by rw [← Block.size_eq_length, hsize, length_encode]
  rw [writeTo_eq hfits]
  rcases writeAll_cases (h := h) r.pieces 0 hb rfl hold (flatten_pieces r).symm (Nat.zero_le _) with
    ⟨n, -, hplan, -⟩ | ⟨-, a, f, b', hrun, hkept, hbytes, hbecomes⟩
  · rw [hm.write] at hplan
    cases hplan
  · rw [hkept hm.write] at hrun
    exact ⟨a, b', hrun, hbytes, hbecomes⟩

theorem size_le_addressable (hfits : r.payload.length < lengthLimit) : r.size ≤ Block.addressable := by
  have hlength : r.size = 16 + r.payload.length := rfl
  have hlimit : lengthLimit + 16 ≤ Block.addressable := by decide
  omega

/-- A record is stored in a block of its own, or refused for want of room. -/
theorem store_cases (hm : m.Steady) (hfits : r.payload.length < lengthLimit) :
    (∃ e, m.Refuses .allocate e ∧ r.store m = .error (.error e) (m.passed .allocate)) ∨
    ∃ a b, r.store m = .ok { r with handle := m.arena.nextHandle } ⟨a, m.faults.pass .allocate⟩ ∧
      b.toList = r.encode ∧ m.arena.Becomes a (Function.update m.arena.block? m.arena.nextHandle (some b)) := by
  rcases Memory.allocate_cases m (size_le_addressable hfits) with ⟨e, hrefuses, he⟩ | ⟨a, hok, hbecomes⟩
  · exact Or.inl ⟨e, hrefuses, by simp only [store, Action.bind_error he]⟩
  · obtain ⟨a', b', hw, hbytes, hbecomes'⟩ := writeTo_ok (m := ⟨a, m.faults.pass .allocate⟩) (r := r)
      (Memory.steady_pass hm (Or.inl rfl)) (by rw [hbecomes.block?, Function.update_self]) (Block.size_fresh _) hfits
    refine Or.inr ⟨a', b', ?_, hbytes, ?_⟩
    · simp only [store, Action.bind_ok hok, Action.bind_ok (Action.attempt_ok hw), Action.pure_run]
    · have hall := hbecomes.trans hbecomes'
      rw [hbecomes.block?, Function.update_idem] at hall
      exact hall

/-- A record is stored in the place of another one, perhaps under another handle, or refused for want of room. -/
theorem storeOver_cases {old : Handle} {b : Block} (hm : m.Steady) (hb : m.arena.block? old = some b)
    (hfits : r.payload.length < lengthLimit) :
    (∃ e, m.Refuses .reallocate e ∧ r.storeOver old m = .error (.error e) (m.passed .reallocate)) ∨
    ∃ h' a b', r.storeOver old m = .ok { r with handle := h' } ⟨a, m.faults.pass .reallocate⟩ ∧
      (h' = old ∨ m.arena.block? h' = none) ∧ b'.toList = r.encode ∧
      m.arena.Becomes a (Function.update (Function.update m.arena.block? old none) h' (some b')) := by
  rcases Memory.reallocate_cases r.size hb with
    ⟨e, hrefuses, he⟩ | ⟨h', b', a, hok, hh', hbytes, hbecomes⟩ | ⟨x, m', hsize, -⟩
  · exact Or.inl ⟨e, hrefuses, by simp only [storeOver, Action.bind_error he]⟩
  · have hsize : b'.size = r.size := by
      rw [Block.size_eq_length, hbytes, ← Block.size_eq_length, Block.size_resize]
    obtain ⟨a', b'', hw, hbytes', hbecomes'⟩ := writeTo_ok (m := ⟨a, m.faults.pass .reallocate⟩) (r := r)
      (Memory.steady_pass hm (Or.inr rfl)) (by rw [hbecomes.block?, Function.update_self]) hsize hfits
    refine Or.inr ⟨h', a', b'', ?_, hh'.imp And.left And.left, hbytes', ?_⟩
    · simp only [storeOver, Action.bind_ok hok, Action.bind_ok hw, Action.pure_run]
    · have hall := hbecomes.trans hbecomes'
      rw [hbecomes.block?, Function.update_idem] at hall
      exact hall
  · exact absurd (size_le_addressable hfits) (Nat.not_le_of_lt hsize)

end Record

end RecordStore
