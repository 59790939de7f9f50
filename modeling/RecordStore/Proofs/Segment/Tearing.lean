import Mathlib.Tactic.IntervalCases
import RecordStore.Proofs.Segment.Storing

/-! # Torn records

A record that takes the place of another one is written over it, after the block was resized for it. If this fails on
the way, the block has moved, or the first bytes in it are those of the new record already. -/

namespace RecordStore

namespace Record

variable {r₀ r : Record} {n : Nat}

/-- What is left of a payload in the room of another one. -/
def leftover (payload : Bytes) (length : Nat) : Bytes :=
  payload.take length ++ List.replicate (length - payload.length) 0

theorem length_leftover (payload : Bytes) (length : Nat) : (leftover payload length).length = length := by
  rw [leftover, List.length_append, List.length_take, List.length_replicate]
  omega

theorem leftover_eq_iff {payload : Bytes} {length : Nat} : leftover payload length = payload ↔ length = payload.length := by
  constructor
  · intro h
    rw [← h, length_leftover]
  · rintro rfl
    rw [leftover, List.take_length, Nat.sub_self, List.replicate_zero, List.append_nil]

theorem take_leftover {payload : Bytes} {length : Nat} (h : payload.length ≤ length) :
    (leftover payload length).take payload.length = payload := by
  rw [leftover, List.take_of_length_le h, List.take_left' rfl]

/-- The bytes that are left when `n` pieces of `r` were written over `r₀`. -/
def torn (r₀ r : Record) (n : Nat) : Bytes :=
  r.encode.take (r.pieces.take n).flatten.length ++
    (r₀.encode.take r.size ++ List.replicate (r.size - r₀.size) 0).drop (r.pieces.take n).flatten.length

/-- Where the writing of a record stops: before its first piece if it is too long, else by plan. -/
def StopsAt (r : Record) (f : Faults) (n : Nat) : Prop :=
  lengthLimit ≤ r.payload.length ∧ n = 0 ∨ r.payload.length < lengthLimit ∧ n < 4 ∧ f.write.head? = some n

theorem StopsAt.lt {f : Faults} (h : r.StopsAt f n) : n < 4 := by
  rcases h with ⟨-, rfl⟩ | ⟨-, hn, -⟩
  · decide
  · exact hn

theorem StopsAt.fits {f : Faults} (h : r.StopsAt f n) (hn : 1 ≤ n) : r.payload.length < lengthLimit := by
  rcases h with ⟨-, rfl⟩ | ⟨hfits, -⟩
  · cases hn
  · exact hfits

theorem StopsAt.unique {f : Faults} {n' : Nat} (h : r.StopsAt f n) (h' : r.StopsAt f n') : n = n' := by
  rcases h with ⟨hlong, rfl⟩ | ⟨hfits, -, hplan⟩ <;> rcases h' with ⟨hlong', rfl⟩ | ⟨hfits', -, hplan'⟩
  · rfl
  · omega
  · omega
  · rw [hplan] at hplan'
    exact Option.some.inj hplan'

/-- The first `n` pieces of `r` are those of `r₀`, and its payload is not shorter. -/
structure Agrees (r₀ r : Record) (n : Nat) : Prop where
  room : r₀.payload.length ≤ r.payload.length
  length : 1 ≤ n → r.payload.length = r₀.payload.length
  createdAt : 2 ≤ n → r.createdAt = r₀.createdAt
  ttl : 3 ≤ n → r.ttl = r₀.ttl

/-- The old record in a block that was resized for the new one. -/
theorem encode_resized (r₀ r : Record) : r₀.encode.take r.size ++ List.replicate (r.size - r₀.size) 0 =
    [Bytes.littleEndian 4 r₀.payload.length, Bytes.littleEndian 8 r₀.createdAt.toNat,
      Bytes.littleEndian 4 r₀.ttl.toNat, leftover r₀.payload r.payload.length].flatten := by
  have hsize : r.size - r₀.size = r.payload.length - r₀.payload.length := Nat.add_sub_add_left 16 _ _
  rw [hsize, encode, List.take_append, List.take_of_length_le (by simp [size, sizeFor, payloadOffset]),
    List.append_assoc]
  simp [leftover, size, sizeFor, payloadOffset]

/-- A torn record has a header from both records, and what is left of the old payload. -/
theorem torn_eq (r₀ r : Record) (hn : n < 4) : torn r₀ r n =
    Bytes.littleEndian 4 (if 1 ≤ n then r.payload.length else r₀.payload.length) ++
      Bytes.littleEndian 8 (if 2 ≤ n then r.createdAt else r₀.createdAt).toNat ++
      Bytes.littleEndian 4 (if 3 ≤ n then r.ttl else r₀.ttl).toNat ++ leftover r₀.payload r.payload.length := by
  have hnew : r.encode.take (r.pieces.take n).flatten.length = (r.pieces.take n).flatten := by
    conv_lhs => rw [← flatten_pieces r, ← List.take_append_drop n r.pieces, List.flatten_append]
    rw [List.take_left' (by rw [List.take_append_drop])]
  have hold (rest : Bytes) : ([Bytes.littleEndian 4 r₀.payload.length, Bytes.littleEndian 8 r₀.createdAt.toNat,
      Bytes.littleEndian 4 r₀.ttl.toNat, rest].flatten).drop (r.pieces.take n).flatten.length =
      ([Bytes.littleEndian 4 r₀.payload.length, Bytes.littleEndian 8 r₀.createdAt.toNat,
        Bytes.littleEndian 4 r₀.ttl.toNat, rest].drop n).flatten := by
    conv_lhs => rw [← List.take_append_drop n [_, _, _, rest], List.flatten_append]
    refine List.drop_left' ?_
    interval_cases n <;> simp [pieces]
  rw [torn, hnew, encode_resized, hold]
  interval_cases n <;> simp [pieces]

/-- A torn record is read as the old one just if what was written of the new one is the same. -/
theorem decode?_torn (hn : n < 4) (hfits : r₀.payload.length < lengthLimit)
    (hwritten : 1 ≤ n → r.payload.length < lengthLimit) :
    decode? r₀.handle (torn r₀ r n) = some r₀ ↔ r₀.Agrees r n := by
  obtain ⟨payload, createdAt, ttl, handle⟩ := r₀
  have hlength : (if 1 ≤ n then r.payload.length else payload.length) < lengthLimit := by
    split
    · exact hwritten ‹_›
    · exact hfits
  rw [torn_eq _ r hn, decode?_header hlength, length_leftover]
  by_cases hone : 1 ≤ n
  · -- The new length stands in the header, so that all that is left is read as the payload.
    rw [if_pos hone, if_pos (Nat.le_refl _), List.take_of_length_le (Nat.le_of_eq (length_leftover _ _)),
      Option.some.injEq, Record.mk.injEq, leftover_eq_iff]
    constructor
    · rintro ⟨hsame, hcreated, httl, -⟩
      exact ⟨Nat.le_of_eq hsame.symm, fun _ => hsame, fun htwo => by rwa [if_pos htwo] at hcreated,
        fun hthree => by rwa [if_pos hthree] at httl⟩
    · rintro ⟨-, hsame, hcreated, httl⟩
      exact ⟨hsame hone, ite_eq_right_iff.mpr hcreated, ite_eq_right_iff.mpr httl, rfl⟩
  · rw [if_neg hone, if_neg (show ¬ 2 ≤ n by omega), if_neg (show ¬ 3 ≤ n by omega)]
    by_cases hroom : payload.length ≤ r.payload.length
    · rw [if_pos hroom, take_leftover hroom]
      exact ⟨fun _ => ⟨hroom, by omega, by omega, by omega⟩, fun _ => rfl⟩
    · rw [if_neg hroom]
      exact ⟨nofun, fun h => absurd h.room hroom⟩

end Record

/-! ### What is left in the arena -/

namespace Arena

variable {a a' : Arena} {r₀ r : Record} {b : Block} {n : Nat}

/-- From `a` to `a'` the block `b` of `r₀` was resized for `r`, and then `n` pieces of `r` were written. -/
structure Tears (a a' : Arena) (r₀ : Record) (b : Block) (r : Record) (n : Nat) : Prop where
  changed : ∃ h b', (h = r₀.handle ∧ r.size ≤ b.capacity ∨ a.block? h = none ∧ b.capacity < r.size) ∧
    b'.toList = Record.torn r₀ r n ∧ a.Becomes a' (Function.update (Function.update a.block? r₀.handle none) h (some b'))

/-- The old record is still there just if its block had the room, and what was written is the same. -/
theorem Tears.record?_eq_iff (ht : a.Tears a' r₀ b r n) (hb : a.block? r₀.handle = some b) (hn : n < 4)
    (hfits : r₀.payload.length < Record.lengthLimit) (hwritten : 1 ≤ n → r.payload.length < Record.lengthLimit) :
    a'.record? r₀.handle = some r₀ ↔ r.size ≤ b.capacity ∧ r₀.Agrees r n := by
  obtain ⟨h, b', hplace, hbytes, hbecomes⟩ := ht.changed
  rcases hplace with ⟨rfl, hroom⟩ | ⟨hdead, hroom⟩
  · rw [record?, hbecomes.block?, Function.update_self, Option.bind_some, hbytes,
      Record.decode?_torn hn hfits hwritten]
    exact ⟨fun h => ⟨hroom, h⟩, And.right⟩
  · have hne : r₀.handle ≠ h := by
      rintro rfl
      rw [hb] at hdead
      cases hdead
    have hgone : a'.block? r₀.handle = none := by
      rw [hbecomes.block?, Function.update_of_ne hne, Function.update_self]
    rw [record?, hgone, Option.bind_none]
    constructor
    · intro hnone
      cases hnone
    · rintro ⟨hroom', -⟩
      omega

theorem Tears.block?_eq {g : Handle} (ht : a.Tears a' r₀ b r n) (hg : g ≠ r₀.handle) (hlive : a.block? g ≠ none) :
    a'.block? g = a.block? g := by
  obtain ⟨h, b', hplace, -, hbecomes⟩ := ht.changed
  have hne : g ≠ h := by
    rintro rfl
    rcases hplace with ⟨rfl, -⟩ | ⟨hdead, -⟩
    · exact hg rfl
    · exact hlive hdead
  rw [hbecomes.block?, Function.update_of_ne hne, Function.update_of_ne hg]

theorem Tears.liveCount_eq (ht : a.Tears a' r₀ b r n) (hb : a.block? r₀.handle = some b) : a'.liveCount = a.liveCount := by
  obtain ⟨h, b', hplace, -, hbecomes⟩ := ht.changed
  exact liveCount_moved hb (hplace.imp And.left And.left) hbecomes.block?

end Arena

namespace Record

variable {m m' : Memory} {r₀ r : Record} {b : Block} {e : Error}

/-- A record that cannot be stored over another one was refused the room, or tears it. -/
theorem storeOver_error (hr₀ : m.arena.Holds r₀) (hb : m.arena.block? r₀.handle = some b)
    (hrun : r.storeOver r₀.handle m = .error (.error e) m') :
    ((∃ e m'', Memory.reallocate r₀.handle r.size m = .error (.error e) m'') ∧ m'.arena = m.arena) ∨
    ((∃ h m'', Memory.reallocate r₀.handle r.size m = .ok h m'') ∧
      ∃ n, r.StopsAt m.faults n ∧ m.arena.Tears m'.arena r₀ b r n) := by
  have hbytes : b.toList = r₀.encode := by
    obtain ⟨b₀, hb₀, hbytes⟩ := hr₀.block
    rw [hb] at hb₀
    cases hb₀
    exact hbytes
  rcases Memory.reallocate_cases r.size hb with
    ⟨e', -, he⟩ | ⟨h, b', a, hok, hplace, hresized, hbecomes⟩ | ⟨x, m'', -, he⟩
  · have hstore : r.storeOver r₀.handle m = .error (.error e') (m.passed .reallocate) := Action.bind_error he
    rw [hstore] at hrun
    cases hrun
    exact Or.inl ⟨⟨_, _, he⟩, rfl⟩
  · refine Or.inr ⟨⟨_, _, hok⟩, ?_⟩
    have hblock : a.block? h = some b' := by rw [hbecomes.block?, Function.update_self]
    have hold : b'.toList = r₀.encode.take r.size ++ List.replicate (r.size - r₀.size) 0 := by
      rw [hresized, Block.toList_resize, Block.size_eq_length, hbytes, length_encode]
    have hlength : b'.toList.length = r.encode.length := by
      rw [hresized, ← Block.size_eq_length, Block.size_resize, length_encode]
    by_cases hlong : lengthLimit ≤ r.payload.length
    · have hstore : r.storeOver r₀.handle m =
          .error (.error (.invalidArgument (.payloadTooLong r.payload.length))) ⟨a, m.faults.pass .reallocate⟩ := by
        simp only [storeOver, Action.bind_ok hok, Action.bind_error (writeTo_rejected hlong _ _)]
      rw [hstore] at hrun
      cases hrun
      refine ⟨0, Or.inl ⟨hlong, rfl⟩, ⟨h, b', hplace, ?_, hbecomes⟩⟩
      rw [torn, ← hold]
      rfl
    · rw [Nat.not_le] at hlong
      rcases writeAll_cases (m := ⟨a, m.faults.pass .reallocate⟩) (h := h) r.pieces 0 hblock rfl hlength
        (flatten_pieces r).symm (Nat.zero_le _) with
        ⟨n, hn, hplan, a', f, b'', hwrite, hbytes', hbecomes'⟩ | ⟨-, a', f, b'', hwrite, -⟩
      · rw [← writeTo_eq hlong] at hwrite
        have hstore : r.storeOver r₀.handle m = .error (.error Memory.plannedFault) ⟨a', f⟩ := by
          simp only [storeOver, Action.bind_ok hok, Action.bind_error hwrite]
        rw [hstore] at hrun
        cases hrun
        have hplan : m.faults.write.head? = some n :=
          (congrArg List.head? (m.faults.gaps_pass (c := .reallocate) (d := .write) (by decide))).symm.trans hplan
        have hall := hbecomes.trans hbecomes'
        rw [hbecomes.block?, Function.update_idem] at hall
        refine ⟨n, Or.inr ⟨hlong, hn, hplan⟩, ⟨h, b'', hplace, ?_, hall⟩⟩
        rw [Nat.zero_add] at hbytes'
        rw [torn, ← hold]
        exact hbytes'
      · rw [← writeTo_eq hlong] at hwrite
        have hstore : r.storeOver r₀.handle m = .ok { r with handle := h } ⟨a', f⟩ := by
          simp only [storeOver, Action.bind_ok hok, Action.bind_ok hwrite, Action.pure_run]
        rw [hstore] at hrun
        cases hrun
  · have hstore : r.storeOver r₀.handle m = .error (.abort x) m'' := Action.bind_error he
    rw [hstore] at hrun
    cases hrun

/-- Where nothing else fails, a record that is too long moves the block of the other one, and is not written then. -/
theorem storeOver_too_long (hfaults : m.faults = .never) (hlimit : m.arena.limit? = none)
    (hb : m.arena.block? r₀.handle = some b) (hmoves : b.capacity < r.size) (hsize : r.size ≤ Block.addressable)
    (hlong : lengthLimit ≤ r.payload.length) :
    ∃ a, r.storeOver r₀.handle m = .error (.error (.invalidArgument (.payloadTooLong r.payload.length))) ⟨a, .never⟩ ∧
      a.block? r₀.handle = none := by
  rcases Memory.reallocate_cases r.size hb with
    ⟨e, hrefuses, -⟩ | ⟨h, b', a, hok, ⟨-, hroom⟩ | ⟨hdead, -⟩, -, hbecomes⟩ | ⟨-, -, hlarge, -⟩
  · exact absurd hrefuses (Memory.not_refuses hfaults hlimit)
  · exact absurd hroom (Nat.not_le_of_lt hmoves)
  · rw [hfaults, Memory.pass_never] at hok
    have hne : r₀.handle ≠ h := by
      rintro rfl
      rw [hb] at hdead
      cases hdead
    refine ⟨a, ?_, ?_⟩
    · simp only [storeOver, Action.bind_ok hok, Action.bind_error (writeTo_rejected hlong _ _)]
    · rw [hbecomes.block?, Function.update_of_ne hne, Function.update_self]
  · exact absurd hsize (Nat.not_le_of_lt hlarge)

end Record

/-! ### Putting over a record -/

namespace Segment

variable {t u : State} {r₀ r : Record} {k : Value} {e : Error}

/-- The counters or the memory refuse what the new record takes in the place of the old one. -/
def State.RefusesOver (t : State) (r₀ r : Record) : Prop :=
  (∃ reason, t.counters.reserveReplace r₀.size r.size = .error reason) ∨
    ∃ e m, Memory.reallocate r₀.handle r.size t.memory = .error (.error e) m

theorem InOrder.probe_record (ho : InOrder t.memory.arena t.segment) (hm : t.memory.Legible) (hr : r ∈ t.records)
    (hk : r.key? = some k) :
    ∃ i, occupant? t.segment.slots i = some r.handle ∧ probe k t = .ok (.found i r.handle) t := by
  obtain ⟨hmem, hrecord⟩ := Arena.mem_records.mp hr
  obtain ⟨j, hj⟩ := mem_held.mp hmem
  rcases ho.probe_cases hm k with ⟨i, h, r', hprobe, hi, hr', hk'⟩ | ⟨i, -, -, hnone⟩
  · have hsame : i = j := ho.chained.distinct hi hj (by
      rw [Arena.key?_of_record? hr', Arena.key?_of_record? hrecord, hk, hk'])
    rw [hsame, hj] at hi
    cases hi
    exact ⟨j, hj, hsame ▸ hprobe⟩
  · exact absurd hk (hnone r hr)

theorem put_over_eq (ho : InOrder t.memory.arena t.segment) (hm : t.memory.Legible) (hr₀ : r₀ ∈ t.records)
    (hk₀ : r₀.key? = some k) (r : Record) :
    ∃ i, occupant? t.segment.slots i = some r₀.handle ∧ put k r t = overwrite i r₀.handle r₀.size r t := by
  obtain ⟨i, hi, hprobe⟩ := ho.probe_record hm hr₀ hk₀
  have hread := onMemory_read (Record.sizeAt_ok hm (ho.holds_of_mem hr₀).record?)
  exact ⟨i, hi, by simp only [put, Action.bind_ok hprobe, Action.bind_ok hread]⟩

/-- A record that was granted its bytes but cannot be stored gives them back. -/
theorem overwrite_cancelled {i old : Nat} {h : Handle} {bytes : UInt64} {m : Memory}
    (hres : t.counters.reserveReplace old r.size = .ok { t.counters with bytes })
    (hcancel : Counters.cancelReplace { t.counters with bytes } old r.size = t.counters)
    (hstore : r.storeOver h t.memory = .error (.error e) m) :
    overwrite i h old r t = .error (.error e) { t with memory := m } := by
  have hreserved := reserve_ok (t := t) (p := r.payload)
    (fun c => (c.reserveReplace old r.size).map ((), ·)) (congrArg (Except.map _) hres)
  have hattempt := Action.attempt_error (onMemory_error (t := t.withCounters { t.counters with bytes }) hstore)
  simp only [overwrite, Action.bind_ok hreserved, Action.bind_ok hattempt]
  exact congrArg (fun c => EStateM.Result.error (Failure.error e) (({ t with memory := m } : State).withCounters c))
    hcancel

/-- A put over a record that fails leaves everything but the arena as it was, and the arena too if it was refused. -/
theorem put_over_error (ho : InOrder t.memory.arena t.segment) (hm : t.memory.Legible)
    (hr₀ : r₀ ∈ t.records) (hk₀ : r₀.key? = some k) (hrun : put k r t = .error (.error e) u) :
    ∃ m, u = { t with memory := m } ∧
      (t.RefusesOver r₀ r ∧ m.arena = t.memory.arena ∨
        ¬ t.RefusesOver r₀ r ∧ ∃ b n, t.memory.arena.block? r₀.handle = some b ∧ r.StopsAt t.memory.faults n ∧
          t.memory.arena.Tears m.arena r₀ b r n) := by
  obtain ⟨i, -, hput⟩ := put_over_eq ho hm hr₀ hk₀ r
  have hholds := ho.holds_of_mem hr₀
  obtain ⟨b, hb, -⟩ := hholds.block
  rw [hput] at hrun
  rcases Counters.reserveReplace_cases t.counters r₀.size r.size with ⟨reason, hres, -⟩ | ⟨bytes, hres, -, hcancel⟩
  · have hrefused := reserve_error (t := t) (p := r.payload)
      (fun c => (c.reserveReplace r₀.size r.size).map ((), ·)) (congrArg (Except.map _) hres)
    have hover : overwrite i r₀.handle r₀.size r t = .error (.error (.capacityExceeded reason r.payload)) t := by
      simp only [overwrite, Action.bind_error hrefused]
    rw [hover] at hrun
    cases hrun
    exact ⟨t.memory, rfl, Or.inl ⟨Or.inl ⟨reason, hres⟩, rfl⟩⟩
  have hreserved := reserve_ok (t := t) (p := r.payload)
    (fun c => (c.reserveReplace r₀.size r.size).map ((), ·)) (congrArg (Except.map _) hres)
  have hgranted : (∃ h m, Memory.reallocate r₀.handle r.size t.memory = .ok h m) → ¬ t.RefusesOver r₀ r := by
    rintro ⟨h, m, hok⟩ (⟨reason, herror⟩ | ⟨e', m', herror⟩)
    · rw [hres] at herror
      cases herror
    · rw [hok] at herror
      cases herror
  cases hstore : r.storeOver r₀.handle t.memory with
  | ok r' m =>
    have hattempt := Action.attempt_ok (onMemory_ok (t := t.withCounters { t.counters with bytes }) hstore)
    simp only [overwrite, Action.bind_ok hreserved, Action.bind_ok hattempt] at hrun
    cases hrun
  | error failure m =>
    cases failure with
    | abort x =>
      have hattempt := Action.attempt_abort (onMemory_error (t := t.withCounters { t.counters with bytes }) hstore)
      simp only [overwrite, Action.bind_ok hreserved, Action.bind_error hattempt] at hrun
      cases hrun
    | error e' =>
      rw [overwrite_cancelled hres hcancel hstore] at hrun
      cases hrun
      refine ⟨m, rfl, ?_⟩
      rcases Record.storeOver_error hholds hb hstore with ⟨⟨e'', m', hrefused⟩, harena⟩ | ⟨hok, n, hstops, htears⟩
      · exact Or.inl ⟨Or.inr ⟨e'', m', hrefused⟩, harena⟩
      · exact Or.inr ⟨hgranted hok, b, n, hb, hstops, htears⟩

/-- Where nothing else fails, a record that is too long leaves a handle without a block in the place of the other one. -/
theorem put_over_too_long {b : Block} (ho : InOrder t.memory.arena t.segment) (hfaults : t.memory.faults = .never)
    (hlimit : t.memory.arena.limit? = none) (hunlimited : t.counters.maxBytes? = none) (hr₀ : r₀ ∈ t.records)
    (hk₀ : r₀.key? = some k) (hb : t.memory.arena.block? r₀.handle = some b) (hmoves : b.capacity < r.size)
    (hsize : r.size ≤ Block.addressable) (hlong : Record.lengthLimit ≤ r.payload.length) :
    ∃ a, put k r t = .error (.error (.invalidArgument (.payloadTooLong r.payload.length)))
      { t with memory := ⟨a, .never⟩ } ∧ a.block? r₀.handle = none := by
  have hm : t.memory.Legible := congrArg Faults.read hfaults
  obtain ⟨i, -, hput⟩ := put_over_eq ho hm hr₀ hk₀ r
  obtain ⟨a, hstore, hdead⟩ := Record.storeOver_too_long hfaults hlimit hb hmoves hsize hlong
  rcases Counters.reserveReplace_cases t.counters r₀.size r.size with ⟨-, -, hlimited⟩ | ⟨bytes, hres, -, hcancel⟩
  · exact absurd hunlimited hlimited
  · exact ⟨a, hput.trans (overwrite_cancelled hres hcancel hstore), hdead⟩

end Segment

end RecordStore
