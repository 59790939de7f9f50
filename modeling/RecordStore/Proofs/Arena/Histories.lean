import Mathlib.Data.Nat.Log
import RecordStore.Proofs.Arena.Ledger

/-! # The bytes of an arena, told from its history

What an arena was asked, and what it answered, tell all that its blocks hold: a position has the byte that was last
written there since it came into being, and zero before that. Whether a block was resized where it is or moved makes
no difference to its bytes, only to its handle, and no block is touched by what is asked about another one. -/

namespace RecordStore

namespace Block

variable {b : Block} {size n offset : Nat} {data : Bytes} {f : Nat → UInt8}

/-- The room of a block, as the power of two that it is. -/
theorem capacityFor_eq_clog (size : Nat) : capacityFor size = 2 ^ Nat.clog 2 (max size 16) := by
  refine Nat.le_antisymm (capacityFor_le ?_ ?_) ?_
  · exact Nat.le_trans (Nat.le_max_left size 16) (Nat.le_pow_clog (by decide) _)
  · exact Nat.le_trans (Nat.le_max_right size 16) (Nat.le_pow_clog (by decide) _)
  · rw [capacityFor_eq]
    refine Nat.pow_le_pow_right (by decide) (Nat.clog_le_of_le_pow ?_)
    have hlog : max size minCapacity - 1 < 2 ^ ((max size minCapacity - 1).log2 + 1) := Nat.lt_log2_self
    unfold minCapacity at *
    omega

theorem size_of_map (hb : b.toList = (List.range size).map f) : b.size = size := by
  rw [size_eq_length, hb, List.length_map, List.length_range]

theorem toList_resize_map (hb : b.toList = (List.range size).map f) (n : Nat) :
    (b.resize n).toList = (List.range n).map fun i => if i < size then f i else 0 := by
  rw [toList_resize, size_of_map hb, hb]
  refine List.ext_getElem ?_ fun i h₁ h₂ => ?_
  · simp only [List.length_append, List.length_take, List.length_map, List.length_range, List.length_replicate]
    omega
  · have hin : i < n := by simpa using h₂
    by_cases hi : i < size
    · rw [List.getElem_append_left (by simp; omega)]
      simp [hi]
    · rw [List.getElem_append_right (by simp; omega)]
      simp [hi]

theorem toList_overwrite_map (hb : b.toList = (List.range size).map f) (hin : offset + data.length ≤ size) :
    (b.overwrite offset data).toList =
      (List.range size).map fun i => if offset ≤ i then data.getD (i - offset) (f i) else f i := by
  have htake : (((List.range size).map f).take offset).length = offset := by simp; omega
  rw [toList_overwrite, hb]
  refine List.ext_getElem ?_ fun i h₁ h₂ => ?_
  · simp only [List.length_append, htake, List.length_drop, List.length_map, List.length_range]
    omega
  · have hi : i < size := by simpa using h₂
    by_cases hbefore : i < offset
    · rw [List.getElem_append_left (by simp only [List.length_append, htake]; omega),
        List.getElem_append_left (by omega)]
      simp [hbefore]
    · by_cases hwithin : i < offset + data.length
      · rw [List.getElem_append_left (by simp only [List.length_append, htake]; omega),
          List.getElem_append_right (by omega)]
        simp [htake, Nat.le_of_not_lt hbefore, show i - offset < data.length by omega]
      · rw [List.getElem_append_right (by simp only [List.length_append, htake]; omega)]
        simp [htake, Nat.le_of_not_lt hbefore, show data.length ≤ i - offset by omega,
          show offset + data.length + (i - (offset + data.length)) = i by omega]

theorem slice_map (hin : offset + n ≤ size) :
    (((List.range size).map f).drop offset).take n = (List.range n).map fun i => f (offset + i) := by
  refine List.ext_getElem ?_ fun i h₁ h₂ => ?_
  · simp only [List.length_take, List.length_drop, List.length_map, List.length_range]
    omega
  · simp

end Block

namespace Arena

/-! ### What can come of a request -/

/-- The bytes of the block under a handle. -/
def contents? (a : Arena) (h : Handle) : Option Bytes := (a.block? h).map Block.toList

/-- What comes of a request: the answer to it, or how it fails. -/
def reply (q : Request) (a : Arena) : Except Failure Response :=
  match answer q a with
  | .ok response _ => .ok response
  | .error e _ => .error e

/-- All that can come of a request, and the blocks there are then. -/
inductive Ends (a : Arena) : Request → Except Failure Response → (Handle → Option Block) → Prop
  | refused {q e} : Ends a q (.error (.error e)) a.block?
  | sized {h n} : Ends a (.sizeOf h) (.ok (.size n)) a.block?
  | read {h offset length data} : Ends a (.read h offset length) (.ok (.bytes data)) a.block?
  | made {size} : Ends a (.allocate size) (.ok (.handle a.nextHandle))
      (Function.update a.block? a.nextHandle (some (Block.fresh size)))
  | unmade {size x} : Ends a (.allocate size) (.error (.abort x)) a.block?
  | resized {h b size} (hb : a.block? h = some b) (hroom : size ≤ b.capacity) :
      Ends a (.reallocate h size) (.ok (.handle h)) (Function.update a.block? h (some (b.resize size)))
  | moved {h b size} (hb : a.block? h = some b) (hroom : b.capacity < size) :
      Ends a (.reallocate h size) (.ok (.handle a.nextHandle))
        (Function.update (Function.update a.block? h none) a.nextHandle
          (some { b.resize size with capacity := Block.capacityFor size }))
  | lost {h b size x} (hb : a.block? h = some b) (hroom : b.capacity < size) :
      Ends a (.reallocate h size) (.error (.abort x)) (Function.update a.block? h none)
  | released {h b} (hb : a.block? h = some b) :
      Ends a (.release h) (.ok .done) (Function.update a.block? h none)
  | written {h b offset data} (hb : a.block? h = some b) (hin : offset + data.length ≤ b.size) :
      Ends a (.write h offset data) (.ok .done) (Function.update a.block? h (some (b.overwrite offset data)))

variable {a a' : Arena} {h : Handle} {b : Block} {q : Request} {response : Response}

theorem ends_of_ok {view : Handle → Option Block} (hrun : answer q a = .ok response a') (hview : a'.block? = view)
    (hends : Ends a q (.ok response) view) : Ends a q (reply q a) (Action.final (answer q) a).block? := by
  rw [reply, Action.final_ok hrun, hrun, hview]
  exact hends

theorem ends_of_error {e : Failure} {view : Handle → Option Block} (hrun : answer q a = .error e a')
    (hview : a'.block? = view) (hends : Ends a q (.error e) view) :
    Ends a q (reply q a) (Action.final (answer q) a).block? := by
  rw [reply, Action.final_error hrun, hrun, hview]
  exact hends

theorem ends (q : Request) (a : Arena) : Ends a q (reply q a) (Action.final (answer q) a).block? := by
  cases q with
  | allocate size =>
    rcases allocate_cases a size with ⟨limit, -, -, hrun⟩ | ⟨a', hrun, hbecomes⟩ | ⟨x, a', -, hrun, hview⟩
    · exact ends_of_error (map_error hrun) rfl .refused
    · exact ends_of_ok (map_ok hrun) hbecomes.block? .made
    · exact ends_of_error (map_error hrun) hview .unmade
  | reallocate h size =>
    cases hb : a.block? h with
    | none => exact ends_of_error (answer_dead rfl hb) rfl .refused
    | some b =>
      rcases reallocate_cases size hb with
        ⟨limit, -, -, -, hrun⟩ | ⟨hroom, a', hrun, hbecomes⟩ | ⟨hroom, a', hrun, hbecomes⟩ | ⟨x, a', -, hrun, hroom, hview⟩
      · exact ends_of_error (map_error hrun) rfl .refused
      · exact ends_of_ok (map_ok hrun) hbecomes.block? (.resized hb hroom)
      · exact ends_of_ok (map_ok hrun) hbecomes.block? (.moved hb hroom)
      · exact ends_of_error (map_error hrun) hview (.lost hb hroom)
  | release h =>
    cases hb : a.block? h with
    | none => exact ends_of_error (answer_dead rfl hb) rfl .refused
    | some b =>
      obtain ⟨a', hrun, hbecomes⟩ := release_eq hb
      exact ends_of_ok (map_ok hrun) hbecomes.block? (.released hb)
  | sizeOf h =>
    cases hrun : a.sizeOf h with
    | error e => exact ends_of_error (by simp only [answer, look, hrun, Except.map]; rfl) rfl .refused
    | ok n => exact ends_of_ok (by simp only [answer, look, hrun, Except.map]; rfl) rfl .sized
  | read h offset length =>
    cases hrun : a.read h offset length with
    | error e => exact ends_of_error (by simp only [answer, look, hrun, Except.map]; rfl) rfl .refused
    | ok data => exact ends_of_ok (by simp only [answer, look, hrun, Except.map]; rfl) rfl .read
  | write h offset data =>
    cases hb : a.block? h with
    | none => exact ends_of_error (answer_dead rfl hb) rfl .refused
    | some b =>
      by_cases hin : offset + data.length ≤ b.size
      · obtain ⟨a', hrun, hbecomes⟩ := write_eq hb hin
        exact ends_of_ok (map_ok hrun) hbecomes.block? (.written hb hin)
      · exact ends_of_error (map_error (by simp only [write, access, hb, if_neg hin]; rfl)) rfl .refused

theorem ne_of_live (hb : a.block? h = some b) : h ≠ a.nextHandle := by
  rintro rfl
  rw [block?_nextHandle] at hb
  cases hb

/-- What is asked about other handles leaves a block as it is. -/
theorem block?_final_answer (hb : a.block? h = some b) (hq : q.subject? ≠ some h) :
    (Action.final (answer q) a).block? h = some b := by
  have hends := ends q a
  have hnew := ne_of_live hb
  generalize reply q a = response, (Action.final (answer q) a).block? = view at hends ⊢
  cases hends with
  | refused | sized | read | unmade => exact hb
  | made => rw [Function.update_of_ne hnew, hb]
  | resized | lost | released | written =>
    rw [Function.update_of_ne fun e => hq (by rw [e]; rfl), hb]
  | moved => rw [Function.update_of_ne hnew, Function.update_of_ne fun e => hq (by rw [e]; rfl), hb]

/-! ### Histories -/

/-- A request and what came of it. -/
structure Event where
  request : Request
  reply : Except Failure Response

/-- What an arena was asked so far, the latest first. -/
abbrev History := List Event

/-- How large a block is, and was when it was made. -/
structure Extent where
  size : Nat
  made : Nat

namespace History

/-- The extent of the block under a handle, if there is one: a block is made by allocating it and by moving it, and keeps
    its room as long as it stays where it is. -/
def extent? (h : Handle) : History → Option Extent
  | [] => none
  | ⟨.allocate size, .ok (.handle new)⟩ :: past => if h = new then some ⟨size, size⟩ else extent? h past
  | ⟨.reallocate old size, .ok (.handle new)⟩ :: past =>
    if h = new then if new = old then (extent? h past).map fun e => { e with size } else some ⟨size, size⟩
    else if h = old then none
    else extent? h past
  | ⟨.reallocate old _, .error (.abort _)⟩ :: past => if h = old then none else extent? h past
  | ⟨.release old, .ok _⟩ :: past => if h = old then none else extent? h past
  | _ :: past => extent? h past

/-- The byte at a position of a block: the one that the last write to reach it put there, or zero if there was none since
    the position came into being, with the block or when the block grew. -/
def byteAt : History → Handle → (position : Nat) → UInt8
  | [], _, _ => 0
  | ⟨.allocate _, .ok (.handle new)⟩ :: past, h, i => if h = new then 0 else byteAt past h i
  | ⟨.reallocate old _, .ok (.handle new)⟩ :: past, h, i =>
    if h = new then if i < ((extent? old past).map (·.size)).getD 0 then byteAt past old i else 0
    else byteAt past h i
  | ⟨.write written offset data, .ok _⟩ :: past, h, i =>
    if h = written ∧ offset ≤ i then data.getD (i - offset) (byteAt past h i) else byteAt past h i
  | _ :: past, h, i => byteAt past h i

end History

/-! ### What a history tells -/

/-- A block has the room that it was made with, and at each of its positions the byte that is told. -/
structure Tells (byteAt : Nat → UInt8) (e : Extent) (b : Block) : Prop where
  capacity : b.capacity = Block.capacityFor e.made
  room : e.size ≤ b.capacity
  bytes : b.toList = (List.range e.size).map byteAt

/-- A history tells the blocks that there are, and what they hold. -/
def Recalls (past : History) (view : Handle → Option Block) : Prop :=
  ∀ h, Option.Rel (Tells (past.byteAt h)) (past.extent? h) (view h)

namespace Recalls

variable {past : History} {view : Handle → Option Block} {old new : Handle} {e : Extent} {size offset : Nat} {data : Bytes}

theorem tells (hs : Recalls past view) (hb : view h = some b) :
    ∃ e, past.extent? h = some e ∧ Tells (past.byteAt h) e b := by
  have hold := hs h
  rw [hb] at hold
  generalize past.extent? h = e? at hold
  cases hold with
  | some htells => exact ⟨_, rfl, htells⟩

theorem block (hs : Recalls past view) (he : past.extent? h = some e) :
    ∃ b, view h = some b ∧ Tells (past.byteAt h) e b := by
  have hold := hs h
  rw [he] at hold
  generalize view h = b? at hold
  cases hold with
  | some htells => exact ⟨_, rfl, htells⟩

theorem made (hs : Recalls past view) :
    Recalls (⟨.allocate size, .ok (.handle new)⟩ :: past) (Function.update view new (some (Block.fresh size))) := by
  intro h
  by_cases hnew : h = new
  · have hbytes : History.byteAt (⟨.allocate size, .ok (.handle new)⟩ :: past) h = fun _ => 0 :=
      funext fun i => if_pos hnew
    rw [hbytes, History.extent?, if_pos hnew, hnew, Function.update_self]
    refine .some ⟨rfl, Block.le_capacityFor size, ?_⟩
    rw [Block.toList_fresh, List.map_const', List.length_range]
  · have hbytes : History.byteAt (⟨.allocate size, .ok (.handle new)⟩ :: past) h = past.byteAt h :=
      funext fun i => if_neg hnew
    rw [hbytes, History.extent?, if_neg hnew, Function.update_of_ne hnew]
    exact hs h

/-- A block that was resized under whichever handle has its leading bytes still, and zeros after them. -/
theorem bytes_resized (htells : Tells (past.byteAt old) e b) (he : past.extent? old = some e) :
    (b.resize size).toList =
      (List.range size).map (History.byteAt (⟨.reallocate old size, .ok (.handle new)⟩ :: past) new) := by
  rw [Block.toList_resize_map htells.bytes]
  refine List.map_congr_left fun i _ => ?_
  rw [History.byteAt, if_pos rfl, he, Option.map_some, Option.getD_some]

theorem byteAt_resized (hother : h ≠ new) :
    History.byteAt (⟨.reallocate old size, .ok (.handle new)⟩ :: past) h = past.byteAt h :=
  funext fun _ => if_neg hother

theorem resized (hs : Recalls past view) (hb : view old = some b) (hroom : size ≤ b.capacity) :
    Recalls (⟨.reallocate old size, .ok (.handle old)⟩ :: past) (Function.update view old (some (b.resize size))) := by
  obtain ⟨e, he, htells⟩ := hs.tells hb
  intro h
  by_cases hsame : h = old
  · subst hsame
    rw [History.extent?, if_pos rfl, if_pos rfl, he, Option.map_some, Function.update_self]
    exact .some ⟨htells.capacity, hroom, bytes_resized htells he⟩
  · rw [byteAt_resized hsame, History.extent?, if_neg hsame, if_neg hsame, Function.update_of_ne hsame]
    exact hs h

theorem moved (hs : Recalls past view) (hb : view old = some b) (hne : new ≠ old) :
    Recalls (⟨.reallocate old size, .ok (.handle new)⟩ :: past)
      (Function.update (Function.update view old none) new
        (some { b.resize size with capacity := Block.capacityFor size })) := by
  obtain ⟨e, he, htells⟩ := hs.tells hb
  intro h
  by_cases hnew : h = new
  · subst hnew
    rw [History.extent?, if_pos rfl, if_neg hne, Function.update_self]
    exact .some ⟨rfl, Block.le_capacityFor size, bytes_resized htells he⟩
  · rw [byteAt_resized hnew, History.extent?, if_neg hnew, Function.update_of_ne hnew]
    by_cases hgone : h = old
    · rw [if_pos hgone, hgone, Function.update_self]
      exact .none
    · rw [if_neg hgone, Function.update_of_ne hgone]
      exact hs h

/-- A block is gone after what ends it and tells no bytes. -/
theorem gone {event : Event} (hs : Recalls past view)
    (hextent : ∀ h, History.extent? h (event :: past) = if h = old then none else past.extent? h)
    (hbytes : ∀ h, History.byteAt (event :: past) h = past.byteAt h) :
    Recalls (event :: past) (Function.update view old none) := by
  intro h
  rw [hextent, hbytes]
  by_cases hgone : h = old
  · rw [if_pos hgone, hgone, Function.update_self]
    exact .none
  · rw [if_neg hgone, Function.update_of_ne hgone]
    exact hs h

theorem written (hs : Recalls past view) (hb : view old = some b) (hin : offset + data.length ≤ b.size) :
    Recalls (⟨.write old offset data, .ok .done⟩ :: past)
      (Function.update view old (some (b.overwrite offset data))) := by
  obtain ⟨e, he, htells⟩ := hs.tells hb
  rw [Block.size_of_map htells.bytes] at hin
  intro h
  show Option.Rel _ (past.extent? h) _
  by_cases hsame : h = old
  · subst hsame
    rw [he, Function.update_self]
    refine .some ⟨htells.capacity, htells.room, (Block.toList_overwrite_map htells.bytes hin).trans ?_⟩
    refine List.map_congr_left fun i _ => ?_
    simp only [History.byteAt, true_and]
  · have hbytes : History.byteAt (⟨.write old offset data, .ok .done⟩ :: past) h = past.byteAt h :=
      funext fun i => if_neg fun hreached => hsame hreached.1
    rw [hbytes, Function.update_of_ne hsame]
    exact hs h

/-- Whatever comes of a request is told by the history that it is noted in. -/
theorem noted {response : Except Failure Response} (hs : Recalls past a.block?) (hends : Ends a q response view) :
    Recalls (⟨q, response⟩ :: past) view := by
  cases hends with
  | refused => cases q <;> exact hs
  | sized | read | unmade => exact hs
  | made => exact hs.made
  | resized hb hroom => exact hs.resized hb hroom
  | moved hb _ => exact hs.moved hb (ne_of_live hb).symm
  | lost _ _ | released _ => exact hs.gone (fun _ => rfl) fun _ => rfl
  | written hb hin => exact hs.written hb hin

end Recalls

/-! ### Faithful blocks -/

/-- A block got another size, and `h'` names it from then on. -/
structure Resized (e : Extent) (h h' : Handle) (size : Nat) (a a' : Arena) : Prop where
  contents : a'.contents? h' =
    (a.contents? h).map fun bytes => bytes.take size ++ List.replicate (size - bytes.length) 0
  /-- It stays just if it has the room that it was made with. -/
  stays : h' = h ↔ size ≤ 2 ^ Nat.clog 2 (max e.made 16)
  moved : h' ≠ h → a.contents? h' = none ∧ a'.contents? h = none

/-- The blocks of an arena are byte strings, each under a handle of its own, and what is asked next is answered as the
    history has it. -/
structure Faithful (past : History) (a : Arena) : Prop where
  contents : ∀ h, a.contents? h = (past.extent? h).map fun e => (List.range e.size).map (past.byteAt h)
  sizeOf : ∀ h e, past.extent? h = some e → answer (.sizeOf h) a = .ok (.size e.size) a
  read : ∀ h e offset length, past.extent? h = some e → offset + length ≤ e.size →
    answer (.read h offset length) a = .ok (.bytes ((List.range length).map fun i => past.byteAt h (offset + i))) a
  write : ∀ h e offset data, past.extent? h = some e → offset + data.length ≤ e.size →
    ∃ a', answer (.write h offset data) a = .ok .done a'
  readPast : ∀ h e offset length, past.extent? h = some e → e.size < offset + length →
    answer (.read h offset length) a = .error (.error (.outOfBounds h offset length e.size)) a
  writePast : ∀ h e offset data, past.extent? h = some e → e.size < offset + data.length →
    answer (.write h offset data) a = .error (.error (.outOfBounds h offset data.length e.size)) a
  reallocate : ∀ h e size h' a', past.extent? h = some e → answer (.reallocate h size) a = .ok (.handle h') a' →
    Resized e h h' size a a'
  others : ∀ q h bytes, q.subject? ≠ some h → a.contents? h = some bytes →
    (Action.final (answer q) a).contents? h = some bytes

theorem resized_of_ok {past : History} {h h' : Handle} {e : Extent} {size : Nat} (hs : Recalls past a.block?)
    (he : past.extent? h = some e) (hrun : answer (.reallocate h size) a = .ok (.handle h') a') :
    Resized e h h' size a a' := by
  obtain ⟨b, hb, htells⟩ := hs.block he
  have hresized : (b.resize size).toList = b.toList.take size ++ List.replicate (size - b.toList.length) 0 := by
    rw [Block.toList_resize, Block.size_eq_length]
  have hroom : b.capacity = 2 ^ Nat.clog 2 (max e.made 16) := htells.capacity.trans (Block.capacityFor_eq_clog _)
  have hends := ends (.reallocate h size) a
  rw [reply, hrun, Action.final_ok hrun] at hends
  generalize hview : a'.block? = view at hends
  cases hends with
  | resized hb' hle =>
    cases hb.symm.trans hb'
    refine ⟨?_, iff_of_true rfl (hroom ▸ hle), fun hne => absurd rfl hne⟩
    rw [contents?, contents?, hview, Function.update_self, hb, Option.map_some, Option.map_some, Option.map_some,
      hresized]
  | moved hb' hlt =>
    cases hb.symm.trans hb'
    have hne := ne_of_live hb
    refine ⟨?_, iff_of_false hne.symm (by omega), fun _ => ⟨?_, ?_⟩⟩
    · rw [contents?, contents?, hview, Function.update_self, hb, Option.map_some, Option.map_some, Option.map_some]
      exact congrArg some hresized
    · rw [contents?, block?_nextHandle, Option.map_none]
    · rw [contents?, hview, Function.update_of_ne hne, Function.update_self, Option.map_none]

theorem Recalls.faithful {past : History} (hs : Recalls past a.block?) : Faithful past a where
  contents h := by
    unfold contents?
    have hold := hs h
    generalize past.extent? h = e?, a.block? h = b? at hold
    cases hold with
    | some htells => exact congrArg some htells.bytes
    | none => rfl
  sizeOf h e he := by
    obtain ⟨b, hb, htells⟩ := hs.block he
    simp only [answer, look, Arena.sizeOf, hb, Except.map, Block.size_of_map htells.bytes]
  read h e offset length he hin := by
    obtain ⟨b, hb, htells⟩ := hs.block he
    have hsize := Block.size_of_map htells.bytes
    simp only [answer, look, read_eq hb (hsize ▸ hin), Except.map, htells.bytes, Block.slice_map hin]
  write h e offset data he hin := by
    obtain ⟨b, hb, htells⟩ := hs.block he
    obtain ⟨a', hrun, -⟩ := write_eq hb (Block.size_of_map htells.bytes ▸ hin)
    exact ⟨a', map_ok hrun⟩
  readPast h e offset length he hout := by
    obtain ⟨b, hb, htells⟩ := hs.block he
    have hsize := Block.size_of_map htells.bytes
    have hnot : ¬ offset + length ≤ e.size := by omega
    simp only [answer, look, Arena.read, access, hb, hsize, if_neg hnot, Except.map]
  writePast h e offset data he hout := by
    obtain ⟨b, hb, htells⟩ := hs.block he
    have hsize := Block.size_of_map htells.bytes
    have hnot : ¬ offset + data.length ≤ e.size := by omega
    exact map_error (by simp only [write, access, hb, hsize, if_neg hnot])
  reallocate h e size h' a' he hrun := resized_of_ok hs he hrun
  others q h bytes hq hbytes := by
    obtain ⟨b, hb, hcontents⟩ := Option.map_eq_some_iff.mp hbytes
    rw [contents?, block?_final_answer hb hq, Option.map_some, hcontents]

/-! ### Runs -/

/-- An arena and what it was asked. -/
structure Session where
  past : History
  arena : Arena

namespace Session

/-- Asks one more request. Whatever comes of it, the arena goes on with what it has then. -/
def ask (s : Session) (q : Request) : Session :=
  ⟨⟨q, reply q s.arena⟩ :: s.past, Action.final (answer q) s.arena⟩

def run (limit? : Option Nat) (requests : List Request) : Session := requests.foldl ask ⟨[], empty limit?⟩

theorem recalls_run (limit? : Option Nat) (requests : List Request) :
    Recalls (run limit? requests).past (run limit? requests).arena.block? := by
  have hstart : Recalls [] (empty limit?).block? := fun h => by
    rw [block?_empty]
    exact .none
  unfold run
  suffices ∀ s : Session, Recalls s.past s.arena.block? →
      Recalls (requests.foldl ask s).past (requests.foldl ask s).arena.block? from this _ hstart
  induction requests with
  | nil => exact fun _ hs => hs
  | cons q requests ih => exact fun s hs => ih (s.ask q) (hs.noted (ends q s.arena))

/-- Whatever an arena was asked, its blocks are the byte strings that its history tells. -/
theorem faithful_of_run (limit? : Option Nat) (requests : List Request) :
    Faithful (run limit? requests).past (run limit? requests).arena :=
  (recalls_run limit? requests).faithful

/-- What a block had before it shrank does not come back when it grows again, in place or elsewhere. -/
example : (run none [.allocate 4, .write ⟨1⟩ 0 [1, 2, 3, 4], .reallocate ⟨1⟩ 2, .reallocate ⟨1⟩ 16, .reallocate ⟨1⟩ 17,
    .write ⟨2⟩ 3 [9]]).arena.contents? ⟨2⟩ = some ([1, 2, 0, 9] ++ List.replicate 13 0) := rfl

end Session

end Arena

end RecordStore
