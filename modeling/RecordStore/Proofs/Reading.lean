import RecordStore.Proofs.Memory
import RecordStore.Proofs.Outcomes
import RecordStore.Record
import RecordStore.Segment.Lookup

/-! # Reading

What only reads leaves the blocks as they are, also where it fails half-way, and whatever it fails on is reported. At
most the plan of faults goes on, and not even that in a memory where no read is planned to fail. Keys are read from
blocks, so this is what searches and scans of a table do. -/

namespace RecordStore

open RecordStore.Action

namespace Memory

/-- The blocks are the same, and so is everything else if no read is planned to fail. -/
structure Unwritten (m m' : Memory) : Prop where
  arena : m'.arena = m.arena
  same : m.Legible → m' = m

instance : IsPreorder Memory Unwritten where
  refl _ := ⟨rfl, fun _ => rfl⟩
  trans _ _ _ h₁ h₂ :=
    ⟨h₂.arena.trans h₁.arena, fun hm => (h₂.same (h₁.same hm ▸ hm)).trans (h₁.same hm)⟩

/-- A read answers the bytes that the arena has, or fails with a report. -/
theorem read_yields (h : Handle) (offset length : Nat) (m : Memory) :
    Yields (read h offset length) m (fun b m' => m.Unwritten m' ∧ m.arena.read h offset length = .ok b)
      fun e m' => m.Unwritten m' ∧ e.Reported := by
  have hpassed : m.Unwritten (m.passed .read) := by
    refine ⟨rfl, fun hm => ?_⟩
    have hgaps : m.faults.gaps .read = [] := hm
    simp only [passed, Faults.pass, hgaps]
  cases hdue : m.faults.isDue .read with
  | true => exact .of_error (call_due hdue) ⟨hpassed, _, rfl⟩
  | false =>
    cases hread : m.arena.read h offset length with
    | ok b => exact .of_ok (a := b) (call_ok hdue (by simp only [hread])) ⟨hpassed, rfl⟩
    | error e => exact .of_error (e := .error e) (call_error hdue (by simp only [hread])) ⟨hpassed, _, rfl⟩

theorem tame_read (h : Handle) (offset length : Nat) : Tame Unwritten (read h offset length) := fun m =>
  (read_yields h offset length m).mono (fun _ _ hread => hread.1) fun _ _ hfailed => hfailed

theorem tame_readWord (h : Handle) (offset width : Nat) : Tame Unwritten (readWord h offset width) :=
  (tame_read h offset width).bind fun _ => Tame.pure _

end Memory

namespace Record

open Memory (Unwritten tame_read tame_readWord)

variable (h : Handle)

theorem tame_ttlAt : Tame Unwritten (ttlAt h) :=
  (tame_readWord h ttlOffset 4).bind fun _ => Tame.pure _

theorem tame_createdAt : Tame Unwritten (Memory.readUInt64 h createdAtOffset) :=
  (tame_readWord h createdAtOffset 8).bind fun _ => Tame.pure _

theorem tame_sizeAt : Tame Unwritten (sizeAt h) :=
  (tame_readWord h lengthOffset 4).bind fun _ => Tame.pure _

theorem tame_payloadAt : Tame Unwritten (payloadAt h) :=
  (tame_readWord h lengthOffset 4).bind fun length => tame_read h payloadOffset length

theorem tame_isOverAt (now : UInt64) : Tame Unwritten (isOverAt h now) :=
  (tame_createdAt h).bind fun _ => (tame_ttlAt h).bind fun _ => Tame.pure _

theorem tame_load : Tame Unwritten (load h) :=
  (tame_readWord h lengthOffset 4).bind fun length => (tame_createdAt h).bind fun _ =>
    (tame_ttlAt h).bind fun _ => (tame_read h payloadOffset length).bind fun _ => Tame.pure _

end Record

namespace Segment

variable {α : Type} {t u : State}

/-- Nothing has changed but the memory, whose blocks are the same. -/
def Unwritten (t u : State) : Prop := ∃ m, t.memory.Unwritten m ∧ u = { t with memory := m }

instance : IsPreorder State Unwritten where
  refl t := ⟨t.memory, refl t.memory, rfl⟩
  trans := by
    rintro t _ _ ⟨m, hm, rfl⟩ ⟨m', hm', rfl⟩
    exact ⟨m', IsTrans.trans _ _ _ hm hm', rfl⟩

theorem Unwritten.same (h : Unwritten t u) (hm : t.memory.Legible) : u = t := by
  obtain ⟨m, hm', rfl⟩ := h
  rw [hm'.same hm]

theorem onMemory_yields {x : Action Memory α} {Q : α → Memory → Prop} {E : Failure → Memory → Prop}
    (hx : Yields x t.memory Q E) :
    Yields (onMemory x) t (fun a u => ∃ m, Q a m ∧ u = { t with memory := m })
      fun e u => ∃ m, E e m ∧ u = { t with memory := m } := by
  cases hrun : x t.memory with
  | ok a m => exact .of_ok (onMemory_ok hrun) ⟨m, hx.ok hrun, rfl⟩
  | error e m => exact .of_error (onMemory_error hrun) ⟨m, hx.error hrun, rfl⟩

theorem tame_onMemory {x : Action Memory α} (h : Tame Memory.Unwritten x) : Tame Unwritten (onMemory x) := fun t =>
  (onMemory_yields (h t.memory)).mono (fun _ _ hu => hu) fun _ _ ⟨m, ⟨hm, hreported⟩, hu⟩ => ⟨⟨m, hm, hu⟩, hreported⟩

theorem tame_now : Tame Unwritten now := fun t => show Unwritten t t from refl t

theorem tame_slotAt (i : Nat) : Tame Unwritten (slotAt i) := fun t => show Unwritten t t from refl t

theorem tame_nextSlot (i : Nat) : Tame Unwritten (nextSlot i) := fun t => show Unwritten t t from refl t

theorem tame_currentHandles : Tame Unwritten currentHandles := fun t => show Unwritten t t from refl t

theorem tame_keyAt (h : Handle) : Tame Unwritten (keyAt h) :=
  (tame_onMemory (Record.tame_payloadAt h)).bind fun _ => Tame.ofCodec _

theorem moves_probeFrom (key : Value) (steps i : Nat) : Moves Unwritten (probeFrom key steps i) := by
  induction steps generalizing i with
  | zero => exact fun t => refl t
  | succ steps ih =>
    refine (tame_slotAt i).moves.bind fun h? => ?_
    cases h? with
    | none => exact Moves.pure _
    | some h =>
      refine (tame_keyAt h).moves.bind fun k => ?_
      split
      · exact Moves.pure _
      · exact (tame_nextSlot i).moves.bind fun j => ih j

theorem moves_probe (key : Value) : Moves Unwritten (probe key) := fun t => moves_probeFrom key _ _ t

theorem moves_placeAll (hs : List Handle) (slots : Array (Option Handle)) : Moves Unwritten (placeAll hs slots) := by
  induction hs generalizing slots with
  | nil => exact Moves.pure _
  | cons h hs ih =>
    refine (tame_keyAt h).moves.bind fun k => ?_
    cases freeSlot? slots k with
    | none => exact Moves.throw _
    | some i => exact ih _

theorem tame_overdueKeys (time : UInt64) (hs : List Handle) (keys : List Value) :
    Tame Unwritten (overdueKeys time hs keys) := by
  induction hs generalizing keys with
  | nil => exact Tame.pure _
  | cons h hs ih =>
    refine (tame_onMemory (Record.tame_isOverAt h time)).bind fun due => ?_
    cases due with
    | false => exact ih keys
    | true => exact (tame_keyAt h).bind fun k => ih (k :: keys)

theorem tame_scan (tm : Template) (time : UInt64) (hs : List Handle) (matched : List Bytes) (overdue : List Value) :
    Tame Unwritten (scan tm time hs matched overdue) := by
  induction hs generalizing matched overdue with
  | nil => exact Tame.pure _
  | cons h hs ih =>
    refine (tame_onMemory (Record.tame_load h)).bind fun r => ?_
    split
    · exact (Tame.ofCodec _).bind fun k => ih matched (k :: overdue)
    · refine (Tame.ofCodec _).bind fun found => ?_
      cases found with
      | false => exact ih matched overdue
      | true => exact ih (r.payload :: matched) overdue

end Segment

end RecordStore
