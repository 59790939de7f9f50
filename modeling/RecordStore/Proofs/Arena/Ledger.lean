import RecordStore.Proofs.FreshHandles

/-! # The ledger of an arena

Any calls, one after the other, are answered by an arena with and without a limit. What it has counted then agrees
with what it holds, and a call that it refuses changes nothing of either. -/

namespace RecordStore

namespace Arena

/-- What can be asked of an arena. -/
inductive Request
  | allocate (size : Nat)
  | reallocate (h : Handle) (size : Nat)
  | release (h : Handle)
  | sizeOf (h : Handle)
  | read (h : Handle) (offset length : Nat)
  | write (h : Handle) (offset : Nat) (data : Bytes)

/-- What an arena answers. -/
inductive Response
  | handle (h : Handle)
  | size (n : Nat)
  | bytes (data : Bytes)
  | done
  deriving DecidableEq

/-- An answer that is read off the arena. -/
def look (x : Arena → Except Error Response) : Action Arena Response := fun a =>
  match x a with
  | .ok reply => .ok reply a
  | .error e => .error (.error e) a

def answer : Request → Action Arena Response
  | .allocate size => .handle <$> allocate size
  | .reallocate h size => .handle <$> reallocate h size
  | .release h => (fun _ => .done) <$> release h
  | .sizeOf h => look fun a => (a.sizeOf h).map .size
  | .read h offset length => look fun a => (a.read h offset length).map .bytes
  | .write h offset data => (fun _ => .done) <$> write h offset data

/-- The answers to some requests, or the errors that are reported instead. -/
def run : List Request → Action Arena (List (Except Error Response))
  | [] => pure []
  | q :: requests => do
    let reply ← Action.attempt (answer q)
    let replies ← run requests
    return reply :: replies

namespace Request

/-- The handle whose block a request is about. -/
def subject? : Request → Option Handle
  | .allocate _ => none
  | .reallocate h _ | .release h | .sizeOf h | .read h _ _ | .write h _ _ => some h

/-- How many bytes more than now would be in use. -/
def growth (a : Arena) : Request → Nat
  | .allocate size => size
  | .reallocate h size =>
    match a.block? h with
    | none => 0
    | some b => size - b.size
  | _ => 0

/-- A new buffer is needed: for a new block, or for one that has no room to grow where it is. -/
def Opens (a : Arena) : Request → Prop
  | .allocate _ => True
  | .reallocate h size => ∃ b, a.block? h = some b ∧ b.capacity < size
  | _ => False

/-- A block of the size that is asked for can be laid out, or is larger than all that may be in use. -/
def Creatable (limit? : Option Nat) : Request → Prop
  | .allocate size | .reallocate _ size => size ≤ Block.addressable ∨ ∃ limit, limit? = some limit ∧ limit < size
  | _ => True

end Request

variable {a a' : Arena} {h h' : Handle} {b : Block} {b? : Option Block} {limit size : Nat} {q : Request}

/-! ### Sums over the live blocks that change -/

theorem total_eq_range {n : Nat} (hn : a.blocks.size ≤ n) (f : Block → Nat) :
    a.total f = ∑ i ∈ Finset.range n, ((a.block? ⟨i⟩).map f).getD 0 := by
  unfold total
  refine Finset.sum_subset (Finset.range_subset_range.mpr hn) fun i _ hi => ?_
  cases hb : a.block? ⟨i⟩ with
  | none => rfl
  | some b => exact absurd (Finset.mem_range.mpr (number_lt_of_block? hb)) hi

/-- Where one handle gets another block, or none, a sum changes by what is measured of the two. -/
theorem total_update (hview : a'.block? = Function.update a.block? h b?) (f : Block → Nat) :
    a'.total f + ((a.block? h).map f).getD 0 = a.total f + (b?.map f).getD 0 := by
  obtain ⟨n, hn, hn', hlt⟩ : ∃ n, a.blocks.size ≤ n ∧ a'.blocks.size ≤ n ∧ h.number < n :=
    ⟨a.blocks.size + a'.blocks.size + h.number + 1, by omega, by omega, by omega⟩
  have hmem : h.number ∈ Finset.range n := Finset.mem_range.mpr hlt
  have hrest : ∑ i ∈ (Finset.range n).erase h.number, ((a'.block? ⟨i⟩).map f).getD 0 =
      ∑ i ∈ (Finset.range n).erase h.number, ((a.block? ⟨i⟩).map f).getD 0 := by
    refine Finset.sum_congr rfl fun i hi => ?_
    have hne : (⟨i⟩ : Handle) ≠ h := fun e => (Finset.mem_erase.mp hi).1 (congrArg Handle.number e)
    rw [hview, Function.update_of_ne hne]
  have hafter : ((a'.block? h).map f).getD 0 + _ = a'.total f :=
    (Finset.add_sum_erase _ (fun i => ((a'.block? ⟨i⟩).map f).getD 0) hmem).trans (total_eq_range hn' f).symm
  have hbefore : ((a.block? h).map f).getD 0 + _ = a.total f :=
    (Finset.add_sum_erase _ (fun i => ((a.block? ⟨i⟩).map f).getD 0) hmem).trans (total_eq_range hn f).symm
  rw [hview, Function.update_self, ← hview, hrest] at hafter
  omega

/-! ### Balance -/

/-- The counters agree with the live blocks, and these stay within the limit. -/
structure Balanced (a : Arena) : Prop where
  sound : a.Sound
  capped : ∀ limit, a.limit? = some limit → limit < wordLimit ∧ a.total Block.size ≤ limit

/-- Answering a request leaves an arena balanced, under the limit that it had and with no handle forgotten. -/
structure Advances (a a' : Arena) : Prop where
  balanced : a'.Balanced
  limit? : a'.limit? = a.limit?
  grows : a.Grows a'

theorem balanced_empty {limit? : Option Nat} (hlimit : ∀ limit, limit? = some limit → limit < wordLimit) :
    (empty limit?).Balanced where
  sound := sound_empty limit?
  capped limit h := ⟨hlimit limit h, Nat.zero_le limit⟩

theorem toNat_ofNat_of_lt {n : Nat} (hn : n < wordLimit) : (UInt64.ofNat n).toNat = n := by
  rw [UInt64.toNat_ofNat']
  exact Nat.mod_eq_of_lt hn

namespace Balanced

theorem advances_refl (ha : a.Balanced) : Advances a a := ⟨ha, rfl, Nat.le_refl _⟩

theorem allocatedBytes (ha : a.Balanced) (hfree : a.limit? = none → a.total Block.size < wordLimit) :
    a.allocatedBytes.toNat = a.total Block.size := by
  rw [ha.sound.bytes]
  refine toNat_ofNat_of_lt ?_
  cases hlimit : a.limit? with
  | none => exact hfree hlimit
  | some limit =>
    obtain ⟨hword, hle⟩ := ha.capped limit hlimit
    omega

theorem allocatedBytes_of_limit (ha : a.Balanced) (hlimit : a.limit? = some limit) :
    a.allocatedBytes.toNat = a.total Block.size :=
  ha.allocatedBytes fun hnone => by
    rw [hlimit] at hnone
    cases hnone

theorem advances {view : Handle → Option Block} (ha : a.Balanced) (hview : Becomes a a' view) (hgrows : a.Grows a')
    (hle : ∀ limit, a.limit? = some limit → a'.total Block.size ≤ limit) : Advances a a' where
  balanced := {
    sound := hview.sound ha.sound
    capped limit hlimit := by
      rw [hview.limit?] at hlimit
      exact ⟨(ha.capped limit hlimit).1, hle limit hlimit⟩ }
  limit? := hview.limit?
  grows := hgrows

theorem size_le_total (hb : a.block? h = some b) : b.size ≤ a.total Block.size := by
  have htotal := total_replace none hb Block.size
  rw [Option.map_none, Option.getD_none] at htotal
  omega

/-! ### Blocks that are made and moved -/

theorem allocate_cases (ha : a.Balanced) (hsize : (Request.allocate size).Creatable a.limit?) :
    (∃ limit, allocate size a = .error (.error (.outOfMemory size limit)) a) ∨
      ∃ a', allocate size a = .ok a.nextHandle a' ∧ Advances a a' ∧ a.nextHandle.number < a'.blocks.size := by
  by_cases hrefused : ∃ limit, a.limit? = some limit ∧ limit < a.allocatedBytes.toNat + size
  · obtain ⟨limit, hlimit, hlt⟩ := hrefused
    exact Or.inl ⟨limit, allocate_refused hlimit hlt⟩
  have hle : size ≤ Block.addressable := by
    rcases hsize with hle | ⟨limit, hlimit, hlt⟩
    · exact hle
    · exact absurd ⟨limit, hlimit, by omega⟩ hrefused
  rcases Arena.allocate_cases a size with ⟨limit, hlimit, hlt, -⟩ | ⟨a', hrun, hview⟩ | ⟨-, -, hlarge, -⟩
  · exact absurd ⟨limit, hlimit, hlt⟩ hrefused
  · have hgrows : a.Grows a' := ((a.allocate_yields size).ok hrun).1
    have hnew : a'.block? a.nextHandle = some (Block.fresh size) := by
      rw [hview.block?]
      exact Function.update_self ..
    refine Or.inr ⟨a', hrun, ha.advances hview hgrows fun limit hlimit => ?_, number_lt_of_block? hnew⟩
    have htotal := total_update hview.block? Block.size
    rw [block?_nextHandle, Option.map_none, Option.getD_none, Option.map_some, Option.getD_some,
      Block.size_fresh] at htotal
    have hfits : ¬ limit < a.allocatedBytes.toNat + size := fun hlt => hrefused ⟨limit, hlimit, hlt⟩
    rw [ha.allocatedBytes_of_limit hlimit] at hfits
    omega
  · exact absurd hle (Nat.not_le_of_lt hlarge)

theorem reallocate_cases (ha : a.Balanced) (hb : a.block? h = some b)
    (hsize : (Request.reallocate h size).Creatable a.limit?) :
    (∃ limit, reallocate h size a = .error (.error (.outOfMemory (size - b.size) limit)) a) ∨
    (∃ a', size ≤ b.capacity ∧ reallocate h size a = .ok h a' ∧ Advances a a') ∨
    ∃ a', b.capacity < size ∧ reallocate h size a = .ok a.nextHandle a' ∧ Advances a a' ∧
      a.nextHandle.number < a'.blocks.size := by
  have hheld := size_le_total hb
  by_cases hrefused : ∃ limit, a.limit? = some limit ∧ b.size < size ∧
      limit < a.allocatedBytes.toNat + (size - b.size)
  · obtain ⟨limit, hlimit, hgrow, hlt⟩ := hrefused
    exact Or.inl ⟨limit, reallocate_refused hb hgrow hlimit hlt⟩
  -- The block stays or moves; in each case the bytes in use change from its old size to the new one.
  have fits : ∀ limit, a.limit? = some limit → a.total Block.size - b.size + size ≤ limit := by
    intro limit hlimit
    obtain ⟨-, hle⟩ := ha.capped limit hlimit
    have hfits : ¬ (b.size < size ∧ limit < a.allocatedBytes.toNat + (size - b.size)) :=
      fun hlt => hrefused ⟨limit, hlimit, hlt⟩
    rw [ha.allocatedBytes_of_limit hlimit] at hfits
    omega
  rcases Arena.reallocate_cases size hb with ⟨limit, hlimit, hgrow, hlt, -⟩ | ⟨hroom, a', hrun, hview⟩ |
    ⟨hroom, a', hrun, hview⟩ | ⟨x, a', hlarge, -⟩
  · exact absurd ⟨limit, hlimit, hgrow, hlt⟩ hrefused
  · have hgrows : a.Grows a' := ((a.reallocate_yields h size).ok hrun).1
    refine Or.inr (Or.inl ⟨a', hroom, hrun, ha.advances hview hgrows fun limit hlimit => ?_⟩)
    have htotal := total_update hview.block? Block.size
    rw [hb, Option.map_some, Option.getD_some, Option.map_some, Option.getD_some, Block.size_resize] at htotal
    have := fits limit hlimit
    omega
  · have hgrows : a.Grows a' := ((a.reallocate_yields h size).ok hrun).1
    have hnew : a'.block? a.nextHandle = some { b.resize size with capacity := Block.capacityFor size } := by
      rw [hview.block?]
      exact Function.update_self ..
    refine Or.inr (Or.inr ⟨a', hroom, hrun, ha.advances hview hgrows fun limit hlimit => ?_, number_lt_of_block? hnew⟩)
    -- Between the old block and the new one there is neither.
    have hgone := total_replace none hb Block.size
    have hdead : (a.replace h none).block? a.nextHandle = none := by
      rw [block?_replace hb, block?_nextHandle, ite_self]
    have hmade : a'.block? = Function.update (a.replace h none).block? a.nextHandle
        (some { b.resize size with capacity := Block.capacityFor size }) := by
      rw [hview.block?, block?_replace_eq hb]
    have htotal := total_update hmade Block.size
    have hsame : ({ b.resize size with capacity := Block.capacityFor size } : Block).size = size :=
      Block.size_resize b size
    rw [hdead, Option.map_none, Option.getD_none, Option.map_some, Option.getD_some, hsame] at htotal
    rw [Option.map_none, Option.getD_none] at hgone
    have := fits limit hlimit
    omega
  · rcases hsize with hle | ⟨limit, hlimit, hlt⟩
    · omega
    · have := fits limit hlimit
      omega

end Balanced

/-! ### Requests -/

section Map
variable {α : Type} {reply : α → Response} {x : Action Arena α} {v : α} {e : Failure}

theorem map_ok (h : x a = .ok v a') : (reply <$> x) a = .ok (reply v) a' := by
  show EStateM.map reply x a = _
  simp only [EStateM.map, h]

theorem map_error (h : x a = .error e a') : (reply <$> x) a = .error e a' := by
  show EStateM.map reply x a = _
  simp only [EStateM.map, h]

end Map

/-- What a request gives out: a handle that is new just if a buffer is. -/
def Request.Names (a : Arena) (q : Request) (h : Handle) : Prop :=
  (q.Opens a → h = a.nextHandle) ∧ (¬ q.Opens a → q.subject? = some h)

/-- A request is refused and nothing has changed, or it is answered. -/
theorem answer_cases (ha : a.Balanced) (hq : q.Creatable a.limit?) :
    (∃ e, answer q a = .error (.error e) a) ∨
      ∃ reply a', answer q a = .ok reply a' ∧ Advances a a' ∧
        ∀ h, reply = .handle h → q.Names a h ∧ h.number < a'.blocks.size := by
  have silent {reply : Response} {a' : Arena} (hreply : ∀ h, reply ≠ .handle h) :
      ∀ h, reply = .handle h → q.Names a h ∧ h.number < a'.blocks.size := fun h e => absurd e (hreply h)
  cases q with
  | allocate size =>
    rcases ha.allocate_cases hq with ⟨limit, hrun⟩ | ⟨a', hrun, hadvances, hlt⟩
    · exact Or.inl ⟨_, map_error hrun⟩
    · refine Or.inr ⟨_, a', map_ok hrun, hadvances, fun h e => ?_⟩
      cases e
      exact ⟨⟨fun _ => rfl, fun hnot => absurd trivial hnot⟩, hlt⟩
  | reallocate h size =>
    cases hb : a.block? h with
    | none => exact Or.inl ⟨.invalidHandle h, map_error (by simp only [reallocate, hb])⟩
    | some b =>
      rcases ha.reallocate_cases hb hq with ⟨limit, hrun⟩ | ⟨a', hroom, hrun, hadvances⟩ |
        ⟨a', hroom, hrun, hadvances, hlt⟩
      · exact Or.inl ⟨_, map_error hrun⟩
      · refine Or.inr ⟨_, a', map_ok hrun, hadvances, fun h' e => ?_⟩
        cases e
        refine ⟨⟨fun hopens => ?_, fun _ => rfl⟩, Nat.lt_of_lt_of_le (number_lt_of_block? hb) hadvances.grows⟩
        obtain ⟨b', hb', hlt⟩ := hopens
        rw [hb] at hb'
        cases hb'
        omega
      · refine Or.inr ⟨_, a', map_ok hrun, hadvances, fun h' e => ?_⟩
        cases e
        exact ⟨⟨fun _ => rfl, fun hnot => absurd ⟨b, hb, hroom⟩ hnot⟩, hlt⟩
  | release h =>
    cases hb : a.block? h with
    | none => exact Or.inl ⟨.invalidHandle h, map_error (by simp only [release, hb])⟩
    | some b =>
      obtain ⟨a', hrun, hview⟩ := release_eq hb
      refine Or.inr ⟨.done, a', map_ok hrun, ?_, silent fun h e => by cases e⟩
      refine ha.advances hview ((a.release_yields h).ok hrun) fun limit hlimit => ?_
      have htotal := total_update hview.block? Block.size
      rw [Option.map_none, Option.getD_none] at htotal
      have := (ha.capped limit hlimit).2
      omega
  | sizeOf h =>
    cases hrun : a.sizeOf h with
    | error e => exact Or.inl ⟨e, by simp only [answer, look, hrun, Except.map]⟩
    | ok n =>
      exact Or.inr ⟨.size n, a, by simp only [answer, look, hrun, Except.map], ha.advances_refl,
        silent fun h e => by cases e⟩
  | read h offset length =>
    cases hrun : a.read h offset length with
    | error e => exact Or.inl ⟨e, by simp only [answer, look, hrun, Except.map]⟩
    | ok data =>
      exact Or.inr ⟨.bytes data, a, by simp only [answer, look, hrun, Except.map], ha.advances_refl,
        silent fun h e => by cases e⟩
  | write h offset data =>
    cases hb : a.block? h with
    | none => exact Or.inl ⟨.invalidHandle h, map_error (by simp only [write, access, hb])⟩
    | some b =>
      by_cases hin : offset + data.length ≤ b.size
      · obtain ⟨a', hrun, hview⟩ := write_eq hb hin
        refine Or.inr ⟨.done, a', map_ok hrun, ?_, silent fun h e => by cases e⟩
        refine ha.advances hview ((a.write_yields h offset data).ok hrun) fun limit hlimit => ?_
        have htotal := total_update hview.block? Block.size
        rw [hb, Option.map_some, Option.getD_some, Option.map_some, Option.getD_some,
          Block.size_overwrite hin] at htotal
        have := (ha.capped limit hlimit).2
        omega
      · exact Or.inl ⟨.outOfBounds h offset data.length b.size, map_error (by
          simp only [write, access, hb, if_neg hin])⟩

/-- A request about a handle that names no block is refused for it. -/
theorem answer_dead (hq : q.subject? = some h) (hb : a.block? h = none) :
    answer q a = .error (.error (.invalidHandle h)) a := by
  cases q with
  | allocate size => cases hq
  | reallocate h' size =>
    cases hq
    exact map_error (by simp only [reallocate, hb])
  | release h' =>
    cases hq
    exact map_error (by simp only [release, hb])
  | sizeOf h' =>
    cases hq
    simp only [answer, look, sizeOf, hb, Except.map]
  | read h' offset length =>
    cases hq
    simp only [answer, look, read, access, hb, Except.map]
  | write h' offset data =>
    cases hq
    exact map_error (by simp only [write, access, hb])

section Reported
variable {e : Error}

theorem of_map_error {α : Type} {reply : α → Response} {x : Action Arena α} {e : Failure}
    (h : (reply <$> x) a = .error e a') : x a = .error e a' := by
  cases hx : x a with
  | ok v a₁ =>
    rw [map_ok hx] at h
    cases h
  | error e₁ a₁ =>
    rw [map_error hx] at h
    cases h
    rfl

theorem of_look {x : Arena → Except Error Response} (h : look x a = .error (.error e) a') :
    x a = .error e ∧ a' = a := by
  cases hx : x a with
  | ok reply =>
    simp only [look, hx] at h
    cases h
  | error e₁ =>
    simp only [look, hx] at h
    cases h
    exact ⟨rfl, rfl⟩

theorem allocate_reported (h : allocate size a = .error (.error e) a') :
    a' = a ∧ ∃ limit, e = .outOfMemory size limit ∧ a.limit? = some limit ∧ limit < a.allocatedBytes.toNat + size := by
  rcases reserve_cases a size with ⟨limit, hlimit, hlt, hres⟩ | hres
  · simp only [allocate, hres] at h
    cases h
    exact ⟨rfl, limit, rfl, hlimit, hlt⟩
  · cases hz : Block.zeros size <;> simp only [allocate, hres, hz] at h <;> cases h

theorem reallocate_reported (hb : a.block? h = some b) (hrun : reallocate h size a = .error (.error e) a') :
    a' = a ∧ ∃ limit, e = .outOfMemory (size - b.size) limit ∧ a.limit? = some limit ∧
      limit < a.allocatedBytes.toNat + (size - b.size) := by
  by_cases hgrow : b.size < size
  · rcases reserve_cases a (size - b.size) with ⟨limit, hlimit, hlt, hres⟩ | hres
    · simp only [reallocate, hb, if_pos hgrow, hres] at hrun
      cases hrun
      exact ⟨rfl, limit, rfl, hlimit, hlt⟩
    · simp only [reallocate, hb, if_pos hgrow, hres] at hrun
      split at hrun
      · cases hrun
      · cases hz : Block.zeros size <;> simp only [move, hz] at hrun <;> cases hrun
  · simp only [reallocate, hb, if_neg hgrow] at hrun
    split at hrun
    · cases hrun
    · cases hz : Block.zeros size <;> simp only [move, hz] at hrun <;> cases hrun

/-- A request that is refused has changed nothing, and it is refused for want of memory only past the limit. -/
theorem answer_reported (hrun : answer q a = .error (.error e) a') :
    a' = a ∧ ∀ n limit, e = .outOfMemory n limit →
      a.limit? = some limit ∧ n = q.growth a ∧ limit < a.allocatedBytes.toNat + n := by
  cases q with
  | allocate size =>
    obtain ⟨rfl, limit, rfl, hlimit, hlt⟩ := allocate_reported (of_map_error hrun)
    refine ⟨rfl, fun n limit' e => ?_⟩
    cases e
    exact ⟨hlimit, rfl, hlt⟩
  | reallocate h size =>
    cases hb : a.block? h with
    | none =>
      rw [answer_dead rfl hb] at hrun
      cases hrun
      exact ⟨rfl, fun n limit e => by cases e⟩
    | some b =>
      obtain ⟨rfl, limit, rfl, hlimit, hlt⟩ := reallocate_reported hb (of_map_error hrun)
      refine ⟨rfl, fun n limit' e => ?_⟩
      cases e
      exact ⟨hlimit, by simp only [Request.growth, hb], hlt⟩
  | release h =>
    have hrelease := of_map_error hrun
    unfold release at hrelease
    split at hrelease
    · cases hrelease
      exact ⟨rfl, fun n limit e => by cases e⟩
    · cases hrelease
  | sizeOf h =>
    have hlook : look (fun a => (a.sizeOf h).map .size) a = .error (.error e) a' := hrun
    obtain ⟨hsize, rfl⟩ := of_look hlook
    refine ⟨rfl, fun n limit e => ?_⟩
    subst e
    unfold sizeOf at hsize
    split at hsize <;> cases hsize
  | read h offset length =>
    have hlook : look (fun a => (a.read h offset length).map .bytes) a = .error (.error e) a' := hrun
    obtain ⟨hread, rfl⟩ := of_look hlook
    refine ⟨rfl, fun n limit e => ?_⟩
    subst e
    unfold read access at hread
    split at hread
    · cases hread
    · split at hread <;> cases hread
  | write h offset data =>
    have hwrite := of_map_error hrun
    unfold write access at hwrite
    split at hwrite
    · rename_i hrefused
      cases hwrite
      refine ⟨rfl, fun n limit e => ?_⟩
      subst e
      split at hrefused
      · cases hrefused
      · split at hrefused <;> cases hrefused
    · cases hwrite

end Reported

namespace Balanced

/-- Memory is refused just to what would exceed the limit. -/
theorem refused_iff (ha : a.Balanced) {n : Nat} :
    answer q a = .error (.error (.outOfMemory n limit)) a ↔
      a.limit? = some limit ∧ n = q.growth a ∧ limit < a.allocatedBytes.toNat + n := by
  refine ⟨fun hrun => (answer_reported hrun).2 n limit rfl, ?_⟩
  rintro ⟨hlimit, rfl, hlt⟩
  have hle := (ha.capped limit hlimit).2
  rw [← ha.allocatedBytes_of_limit hlimit] at hle
  cases q with
  | allocate size => exact map_error (allocate_refused hlimit hlt)
  | reallocate h size =>
    cases hb : a.block? h with
    | none =>
      simp only [Request.growth, hb] at hlt
      omega
    | some b =>
      simp only [Request.growth, hb] at hlt ⊢
      exact map_error (reallocate_refused hb (by omega) hlimit hlt)
  | release h | sizeOf h | read h offset length | write h offset data =>
    simp only [Request.growth] at hlt
    omega

end Balanced

/-! ### Runs -/

/-- The handles that were given out so far are older than the next one. -/
def Given (replies : List (Except Error Response)) (a : Arena) : Prop :=
  ∀ h, .ok (.handle h) ∈ replies → h.number < a.blocks.size

theorem run_advances {requests : List Request} (ha : a.Balanced)
    (hrequests : ∀ q ∈ requests, q.Creatable a.limit?) :
    ∃ replies a', run requests a = .ok replies a' ∧ Advances a a' ∧ Given replies a' := by
  induction requests generalizing a with
  | nil => exact ⟨[], a, rfl, ha.advances_refl, fun h hh => absurd hh List.not_mem_nil⟩
  | cons q requests ih =>
    have later {reply : Except Error Response} {a₁ : Arena} (hreply : Action.attempt (answer q) a = .ok reply a₁)
        (h₁ : Advances a a₁) (hgiven : ∀ h, reply = .ok (.handle h) → h.number < a₁.blocks.size) :
        ∃ replies a', run (q :: requests) a = .ok replies a' ∧ Advances a a' ∧ Given replies a' := by
      obtain ⟨replies, a', hrun, hadvances, hold⟩ := ih h₁.balanced fun q' hq' => by
        rw [h₁.limit?]
        exact hrequests q' (List.mem_cons_of_mem q hq')
      refine ⟨reply :: replies, a', ?_, ⟨hadvances.balanced, hadvances.limit?.trans h₁.limit?,
        Nat.le_trans h₁.grows hadvances.grows⟩, fun h hh => ?_⟩
      · rw [run, Action.bind_ok hreply, Action.bind_ok hrun]
        rfl
      · rcases List.mem_cons.mp hh with hfirst | hrest
        · exact Nat.lt_of_lt_of_le (hgiven h hfirst.symm) hadvances.grows
        · exact hold h hrest
    rcases answer_cases ha (hrequests q List.mem_cons_self) with ⟨e, hrun⟩ | ⟨reply, a₁, hrun, hadvances, hnames⟩
    · exact later (Action.attempt_error hrun) ha.advances_refl fun h e => by cases e
    · refine later (Action.attempt_ok hrun) hadvances fun h e => ?_
      cases e
      exact (hnames h rfl).2

/-- What an arena has counted agrees with what it holds, and whatever is asked next keeps to the rules: `replies` are
    the answers that it gave so far. -/
structure Audited (replies : List (Except Error Response)) (a : Arena) : Prop where
  bytes : (a.limit? = none → a.total Block.size < wordLimit) → a.allocatedBytes.toNat = a.total Block.size
  within : ∀ limit, a.limit? = some limit → a.allocatedBytes.toNat ≤ limit
  balance : a.allocations - a.releases = a.liveCount ∧ a.releases ≤ a.allocations
  /-- A request is answered or refused. -/
  served : ∀ q : Request, q.Creatable a.limit? → ∃ reply a', Action.attempt (answer q) a = .ok reply a'
  /-- The handle of a new buffer was never given out. -/
  fresh : ∀ (q : Request) h a', q.Creatable a.limit? → q.Opens a → answer q a = .ok (.handle h) a' →
    h ≠ .null ∧ .ok (.handle h) ∉ replies
  dead : ∀ (q : Request) h, q.subject? = some h → a.block? h = none → answer q a = .error (.error (.invalidHandle h)) a
  refused : ∀ (q : Request) n limit, answer q a = .error (.error (.outOfMemory n limit)) a ↔
    a.limit? = some limit ∧ n = q.growth a ∧ limit < a.allocatedBytes.toNat + n
  /-- A refusal changes neither the blocks nor what is counted. -/
  atomic : ∀ (q : Request) e a', answer q a = .error (.error e) a' → a' = a

theorem Balanced.audited {replies : List (Except Error Response)} (ha : a.Balanced) (hgiven : Given replies a) :
    Audited replies a where
  bytes := ha.allocatedBytes
  within limit hlimit := by
    rw [ha.allocatedBytes_of_limit hlimit]
    exact (ha.capped limit hlimit).2
  balance := by
    have := ha.sound.balance
    omega
  served q hq := by
    rcases answer_cases ha hq with ⟨e, hrun⟩ | ⟨reply, a', hrun, -⟩
    · exact ⟨_, _, Action.attempt_error hrun⟩
    · exact ⟨_, _, Action.attempt_ok hrun⟩
  fresh q h a' hq hopens hanswer := by
    rcases answer_cases ha hq with ⟨e, hrun⟩ | ⟨reply, a', hrun, -, hnames⟩
    · rw [hrun] at hanswer
      cases hanswer
    · rw [hrun] at hanswer
      cases hanswer
      obtain rfl : h = a.nextHandle := (hnames h rfl).1.1 hopens
      refine ⟨fun hnull => ?_, fun hold => Nat.lt_irrefl _ (hgiven _ hold)⟩
      exact absurd (congrArg Handle.number hnull) (Nat.ne_of_gt ha.sound.started)
  dead q h := answer_dead
  refused q n limit := ha.refused_iff
  atomic q e a' hrun := (answer_reported hrun).1

/-- Whatever is asked of an arena, within its limit if it has one, the ledger agrees with the blocks. -/
theorem audited_of_run {limit? : Option Nat} {requests : List Request}
    (hlimit : ∀ limit, limit? = some limit → limit < wordLimit)
    (hrequests : ∀ q ∈ requests, q.Creatable limit?) :
    ∃ replies a, run requests (empty limit?) = .ok replies a ∧ a.limit? = limit? ∧ Audited replies a := by
  obtain ⟨replies, a, hrun, hadvances, hgiven⟩ := run_advances (balanced_empty hlimit) hrequests
  exact ⟨replies, a, hrun, hadvances.limit?, hadvances.balanced.audited hgiven⟩

/-- A block outgrows its room and moves, its old handle is dead, one block shrinks where it is, and what would pass the
    limit is refused. -/
theorem audited_of_moved :
    ∃ replies a, run [.allocate 20, .allocate 5, .write ⟨2⟩ 1 [7, 8], .reallocate ⟨2⟩ 40, .reallocate ⟨1⟩ 10,
        .release ⟨2⟩, .read ⟨3⟩ 0 4, .read ⟨3⟩ 38 4, .reallocate ⟨3⟩ 55, .allocate (wordLimit - 1), .release ⟨1⟩,
        .sizeOf ⟨3⟩] (empty (some 64)) = .ok replies a ∧
      replies = [.ok (.handle ⟨1⟩), .ok (.handle ⟨2⟩), .ok .done, .ok (.handle ⟨3⟩), .ok (.handle ⟨1⟩),
        .error (.invalidHandle ⟨2⟩), .ok (.bytes [0, 7, 8, 0]), .error (.outOfBounds ⟨3⟩ 38 4 40),
        .error (.outOfMemory 15 64), .error (.outOfMemory (wordLimit - 1) 64), .ok .done, .ok (.size 40)] ∧
      Audited replies a := by
  have hcreatable : ∀ q ∈ [Request.allocate 20, .allocate 5, .write ⟨2⟩ 1 [7, 8], .reallocate ⟨2⟩ 40, .reallocate ⟨1⟩ 10,
      .release ⟨2⟩, .read ⟨3⟩ 0 4, .read ⟨3⟩ 38 4, .reallocate ⟨3⟩ 55, .allocate (wordLimit - 1), .release ⟨1⟩,
      .sizeOf ⟨3⟩], q.Creatable (some 64) := by
    simp [Request.Creatable, Block.addressable, wordLimit]
  obtain ⟨replies, a, hrun, -, haudited⟩ := audited_of_run (by decide) hcreatable
  refine ⟨replies, a, hrun, ?_, haudited⟩
  cases hrun
  rfl

end Arena

end RecordStore
