import RecordStore.Proofs.Reading

/-! # Visits

Lookups, searches and sweeps of a segment read, and evict what they find to be over. What reading and evicting may do
is therefore all that they may do, also where they fail half-way. -/

namespace RecordStore.Segment

open RecordStore.Action

variable {R : State → State → Prop} [IsPreorder State R]

theorem evictAll_moves (hevict : ∀ k, Moves R (evict k)) (keys : List Value) (evicted : Nat) :
    Moves R (evictAll keys evicted) := by
  induction keys generalizing evicted with
  | nil => exact Moves.pure _
  | cons k keys ih =>
    refine (hevict k).bind fun due => ?_
    cases due with
    | false => exact ih evicted
    | true => exact ih (evicted + 1)

section Looking
variable (hR : ∀ {t u}, Unwritten t u → R t u) (hevict : ∀ k, Moves R (evict k))
include hR hevict

theorem Unwritten.moves_evictExpired : Moves R evictExpired := by
  have hread {β : Type} {x : Op β} (hx : Moves Unwritten x) : Moves R x := hx.mono fun _ _ => hR
  refine (hread tame_now.moves).bind fun time => (hread tame_currentHandles.moves).bind fun handles => ?_
  exact (hread (tame_overdueKeys time handles []).moves).bind fun keys => evictAll_moves hevict keys 0

theorem Unwritten.moves_contains (k : Value) : Moves R (contains k) := by
  have hread {β : Type} {x : Op β} (hx : Moves Unwritten x) : Moves R x := hx.mono fun _ _ => hR
  refine (hread (moves_probe k)).bind fun found => ?_
  cases found with
  | absent i => exact Moves.pure _
  | found i h =>
    refine (hread tame_now.moves).bind fun time => ?_
    refine (hread (tame_onMemory (Record.tame_isOverAt h time)).moves).bind fun due => ?_
    cases due with
    | false => exact Moves.pure _
    | true => exact (hevict k).bind fun _ => Moves.pure _

theorem Unwritten.moves_getRecord? (k : Value) : Moves R (getRecord? k) := by
  have hread {β : Type} {x : Op β} (hx : Moves Unwritten x) : Moves R x := hx.mono fun _ _ => hR
  refine (hread (moves_probe k)).bind fun found => ?_
  cases found with
  | absent i => exact Moves.pure _
  | found i h =>
    refine (hread (tame_onMemory (Record.tame_load h)).moves).bind fun r => ?_
    refine (hread tame_now.moves).bind fun time => ?_
    split
    · exact (hevict k).bind fun _ => Moves.pure _
    · exact Moves.pure _

theorem Unwritten.moves_get? (k : Value) : Moves R (get? k) :=
  (moves_getRecord? hR hevict k).bind fun _ => Moves.pure _

theorem Unwritten.moves_matching (tm : Template) : Moves R (matching tm) := by
  have hread {β : Type} {x : Op β} (hx : Moves Unwritten x) : Moves R x := hx.mono fun _ _ => hR
  refine (hread tame_now.moves).bind fun time => (hread tame_currentHandles.moves).bind fun handles => ?_
  refine (hread (tame_scan tm time handles [] []).moves).bind fun found => ?_
  exact (evictAll_moves hevict found.2 0).bind fun _ => Moves.pure _

end Looking

end RecordStore.Segment
