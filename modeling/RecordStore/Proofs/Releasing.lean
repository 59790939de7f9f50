import RecordStore.Proofs.Memory

/-! # Giving blocks back

Blocks are given back one after the other, and some of the releases may be planned to fail. The blocks whose release
fails stay, the others are gone, and no further block has changed. -/

namespace RecordStore

open RecordStore.Action

/-- The plan after some calls of a kind. -/
def Faults.passes (f : Faults) (c : Call) (n : Nat) : Faults := (fun f => f.pass c)^[n] f

namespace Faults

variable {f : Faults} {c : Call}

theorem passes_succ (f : Faults) (c : Call) (n : Nat) : f.passes c (n + 1) = (f.pass c).passes c n := rfl

theorem gaps_passes {d : Call} (f : Faults) (h : d ≠ c) (n : Nat) : (f.passes c n).gaps d = f.gaps d := by
  induction n generalizing f with
  | zero => rfl
  | succ n ih => exact (ih (f.pass c)).trans (f.gaps_pass h)

theorem passes_unplanned (hgaps : f.gaps c = []) (n : Nat) : f.passes c n = f := by
  have hpass : f.pass c = f := by rw [pass, hgaps]
  induction n with
  | zero => rfl
  | succ n ih => rw [passes_succ, hpass, ih]

end Faults

/-- A release takes the block away, if there is one, and changes no other. -/
theorem Arena.becomes_final_release (a : Arena) (h : Handle) :
    a.Becomes (final (Arena.release h) a) (Function.update a.block? h none) := by
  cases hb : a.block? h with
  | none =>
    rw [final_error (show Arena.release h a = .error (.error (.invalidHandle h)) a by simp only [Arena.release, hb]),
      ← hb, Function.update_eq_self]
    exact Becomes.refl a
  | some b =>
    obtain ⟨a', hrun, hbecomes⟩ := Arena.release_eq hb
    rw [final_ok hrun]
    exact hbecomes

namespace Memory

variable {m : Memory} {hs hs' : List Handle} {g h : Handle}

/-- The memory after some blocks were given back one after the other, whichever of the releases fail. -/
def releaseAll (hs : List Handle) (m : Memory) : Memory := hs.foldl (fun m h => final (release h) m) m

/-- Those of the blocks whose release is planned to fail. -/
def refused : List Handle → Faults → List Handle
  | [], _ => []
  | h :: hs, f =>
    if f.isDue .release then h :: refused hs (f.pass .release) else refused hs (f.pass .release)

theorem releaseAll_cons (h : Handle) (hs : List Handle) (m : Memory) :
    m.releaseAll (h :: hs) = (final (release h) m).releaseAll hs := rfl

theorem releaseAll_append (hs hs' : List Handle) (m : Memory) :
    m.releaseAll (hs ++ hs') = (m.releaseAll hs).releaseAll hs' := List.foldl_append

/-! ### One release -/

theorem faults_final_release (m : Memory) (h : Handle) : (final (release h) m).faults = m.faults.pass .release := by
  cases hdue : m.faults.isDue .release with
  | true => rw [release, final_error (call_due hdue)]
  | false =>
    cases hx : Arena.release h m.arena with
    | ok _ a => rw [release, final_ok (call_ok hdue hx)]
    | error e a => rw [release, final_error (call_error hdue hx)]

theorem becomes_final_release (m : Memory) (h : Handle) :
    m.arena.Becomes (final (release h) m).arena
      (if m.faults.isDue .release then m.arena.block? else Function.update m.arena.block? h none) := by
  cases hdue : m.faults.isDue .release with
  | true =>
    rw [release, final_error (call_due hdue)]
    exact Arena.Becomes.refl m.arena
  | false =>
    have hbecomes := m.arena.becomes_final_release h
    cases hx : Arena.release h m.arena with
    | ok _ a =>
      rw [final_ok hx] at hbecomes
      rw [release, final_ok (call_ok hdue hx)]
      exact hbecomes
    | error e a =>
      rw [final_error hx] at hbecomes
      rw [release, final_error (call_error hdue hx)]
      exact hbecomes

/-- A release of a block fails if that is the plan. -/
theorem release_runs {b : Block} (hb : m.arena.block? h = some b) : release h m =
    if m.faults.isDue .release then .error (.error plannedFault) (final (release h) m)
    else .ok () (final (release h) m) := by
  rcases release_cases hb with ⟨hdue, hrelease⟩ | ⟨hdue, a, hrelease, -⟩
  · rw [hdue, if_pos rfl, final_error hrelease, hrelease]
  · rw [hdue, if_neg Bool.false_ne_true, final_ok hrelease, hrelease]

/-! ### All of them -/

theorem faults_releaseAll (m : Memory) (hs : List Handle) :
    (m.releaseAll hs).faults = m.faults.passes .release hs.length := by
  induction hs generalizing m with
  | nil => rfl
  | cons h hs ih => rw [releaseAll_cons, ih, faults_final_release, List.length_cons, Faults.passes_succ]

theorem refused_append (hs hs' : List Handle) (f : Faults) :
    refused (hs ++ hs') f = refused hs f ++ refused hs' (f.passes .release hs.length) := by
  induction hs generalizing f with
  | nil => rfl
  | cons h hs ih =>
    rw [List.cons_append, refused, refused, ih, List.length_cons, Faults.passes_succ]
    split <;> rfl

theorem refused_subset (hs : List Handle) (f : Faults) : refused hs f ⊆ hs := by
  induction hs generalizing f with
  | nil => exact List.Subset.refl _
  | cons h hs ih =>
    rw [refused]
    split
    · exact List.cons_subset_cons h (ih _)
    · exact List.subset_cons_of_subset h (ih _)

theorem refused_unplanned {f : Faults} (hgaps : f.release = []) (hs : List Handle) : refused hs f = [] := by
  have hpass : f.pass .release = f := f.passes_unplanned (c := .release) hgaps 1
  have hdue : f.isDue .release = false := by simp only [Faults.isDue, Faults.gaps, hgaps]; rfl
  induction hs with
  | nil => rfl
  | cons h hs ih => rw [refused, hdue, hpass, ih]; rfl

/-- While all releases up to the planned one succeed, the plan counts them. -/
theorem release_passes {f : Faults} {n : Nat} (hgap : f.release = [n]) (hgranted : refused hs f = []) :
    hs.length ≤ n ∧ (f.passes .release hs.length).release = [n - hs.length] := by
  induction hs generalizing f n with
  | nil => exact ⟨Nat.zero_le n, hgap⟩
  | cons h hs ih =>
    cases n with
    | zero =>
      have hdue : f.isDue .release = true := by rw [Faults.isDue, Faults.gaps, hgap]; rfl
      rw [refused, if_pos hdue] at hgranted
      cases hgranted
    | succ n =>
      have hdue : ¬ f.isDue .release = true := by rw [Faults.isDue, Faults.gaps, hgap]; simp
      have hpass : (f.pass .release).release = [n] := by simp only [Faults.pass, Faults.gaps, hgap, Faults.setGaps, Faults.afterCall]
      rw [refused, if_neg hdue] at hgranted
      obtain ⟨hle, hleft⟩ := ih hpass hgranted
      exact ⟨Nat.succ_le_succ hle, by rw [List.length_cons, Faults.passes_succ, hleft, Nat.succ_sub_succ]⟩

/-- Just the blocks whose release does not fail are gone. -/
theorem becomes_releaseAll (m : Memory) (hnodup : hs.Nodup) :
    m.arena.Becomes (m.releaseAll hs).arena
      fun g => if g ∈ hs ∧ g ∉ refused hs m.faults then none else m.arena.block? g := by
  induction hs generalizing m with
  | nil => simpa [releaseAll] using Arena.Becomes.refl m.arena
  | cons h hs ih =>
    rw [List.nodup_cons] at hnodup
    have hfirst := becomes_final_release m h
    have hall := hfirst.trans (ih (final (release h) m) hnodup.2)
    rw [faults_final_release, hfirst.block?] at hall
    have hnot : h ∉ refused hs (m.faults.pass .release) := fun hh => hnodup.1 (refused_subset hs _ hh)
    refine cast (congrArg _ (funext fun g => ?_)) hall
    cases hdue : m.faults.isDue .release with
    | true =>
      by_cases hg : g = h
      · simp [refused, hdue, hg, hnodup.1]
      · simp [refused, hdue, hg]
    | false =>
      by_cases hg : g = h
      · simp [refused, hdue, hg, hnot]
      · simp [refused, hdue, hg]

/-- Of the blocks that are given back those stay whose release fails. -/
theorem isSome_releaseAll (hnodup : hs.Nodup) (hh : h ∈ hs) (hlive : (m.arena.block? h).isSome) :
    ((m.releaseAll hs).arena.block? h).isSome ↔ h ∈ refused hs m.faults := by
  rw [(becomes_releaseAll m hnodup).block?]
  by_cases hrefused : h ∈ refused hs m.faults
  · simp [hrefused, hlive]
  · simp [hh, hrefused]

theorem block?_releaseAll_of_notMem (hnodup : hs.Nodup) (hh : h ∉ hs) :
    (m.releaseAll hs).arena.block? h = m.arena.block? h := by
  rw [(becomes_releaseAll m hnodup).block?]
  exact if_neg fun hmem => hh hmem.1

theorem legible_releaseAll (hm : m.Legible) (hs : List Handle) : (m.releaseAll hs).Legible := by
  show (m.releaseAll hs).faults.gaps .read = []
  rw [faults_releaseAll, Faults.gaps_passes _ (by decide)]
  exact hm

end Memory

end RecordStore
