import Mathlib.Algebra.BigOperators.Group.Multiset.Basic
import Mathlib.Algebra.Ring.Nat
import RecordStore.Proofs.Counters

/-! # Reservations that overlap

A put reserves its share, writes, and then commits or cancels; calls of other puts and of removals come in between. The
entries are counted exactly whatever the order, and the bytes are those of the entries and of the reservations. Only
the limit on bytes may be passed: a replacement by a smaller record gives its room away when it is reserved, and takes
it back when it is cancelled, even if another put has used it meanwhile. -/

namespace RecordStore.Counters

/-- What an admitted put holds until it commits or cancels. -/
inductive Reservation
  /-- A new entry of `size` bytes, the `items`-th one. -/
  | insert (size items : Nat)
  /-- A record of `new` bytes in the place of an entry of `old` bytes. -/
  | replace (old new : Nat)

/-- The size of the entry that the put is about to leave. -/
def Reservation.size : Reservation → Nat
  | .insert size _ => size
  | .replace _ new => new

/-- Counters with what is counted: the sizes of the committed entries that no put is about to replace, and the
    reservations of the puts in flight. -/
structure Traffic where
  counters : Counters
  entries : Multiset Nat
  pending : Multiset Reservation

/-- What puts and removals ask of the counters. -/
inductive Call
  | insert (size : Nat)
  | replace (old new : Nat)
  | commit (r : Reservation)
  | cancel (r : Reservation)
  | remove (size : Nat)

/-- The room that a call takes without asking for it. -/
def Call.reclaims : Call → Nat
  | .cancel (.replace old new) => old - new
  | _ => 0

theorem Call.reclaims_pos {call : Call} (h : 0 < call.reclaims) :
    ∃ old new, call = .cancel (.replace old new) ∧ new < old := by
  match call, h with
  | .cancel (.replace old new), h => exact ⟨old, new, rfl, Nat.lt_of_sub_pos h⟩

namespace Traffic

/-- The bytes of the entries as they will be, if all puts in flight commit. -/
def total (t : Traffic) : Nat := t.entries.sum + (t.pending.map Reservation.size).sum

/-- Before the first call. -/
def idle (thresholds? : Option Thresholds) (maxBytes? maxItems? : Option Nat) : Traffic :=
  ⟨{ thresholds?, maxBytes?, maxItems? }, 0, 0⟩

/-- One call. Only a committed entry that nobody else is about to replace can be replaced or removed, and only a
    reservation in flight can be committed or cancelled. -/
inductive Step : Traffic → Call → Traffic → Prop
  | refusedInsert {c es ps n reason} (h : c.reserveInsert n = .error reason) : Step ⟨c, es, ps⟩ (.insert n) ⟨c, es, ps⟩
  | insert {c es ps n items c'} (h : c.reserveInsert n = .ok (items, c')) :
    Step ⟨c, es, ps⟩ (.insert n) ⟨c', es, .insert n items ::ₘ ps⟩
  | refusedReplace {c es ps old new reason} (h : c.reserveReplace old new = .error reason) :
    Step ⟨c, old ::ₘ es, ps⟩ (.replace old new) ⟨c, old ::ₘ es, ps⟩
  | replace {c es ps old new c'} (h : c.reserveReplace old new = .ok c') :
    Step ⟨c, old ::ₘ es, ps⟩ (.replace old new) ⟨c', es, .replace old new ::ₘ ps⟩
  | commitInsert {c es ps n items} :
    Step ⟨c, es, .insert n items ::ₘ ps⟩ (.commit (.insert n items)) ⟨c.insertCommitted items, n ::ₘ es, ps⟩
  | commitReplace {c es ps old new} :
    Step ⟨c, es, .replace old new ::ₘ ps⟩ (.commit (.replace old new)) ⟨c, new ::ₘ es, ps⟩
  | cancelInsert {c es ps n items} :
    Step ⟨c, es, .insert n items ::ₘ ps⟩ (.cancel (.insert n items)) ⟨c.cancelInsert n, es, ps⟩
  | cancelReplace {c es ps old new} :
    Step ⟨c, es, .replace old new ::ₘ ps⟩ (.cancel (.replace old new)) ⟨c.cancelReplace old new, old ::ₘ es, ps⟩
  | remove {c es ps n c'} (h : entryRemoved n c = .ok () c') : Step ⟨c, n ::ₘ es, ps⟩ (.remove n) ⟨c', es, ps⟩

/-- One call after the other. -/
inductive Run : Traffic → List Call → Traffic → Prop
  | nil (t : Traffic) : Run t [] t
  | snoc {s t u : Traffic} {calls : List Call} {call : Call} (h : Run s calls t) (hlast : Step t call u) :
    Run s (calls ++ [call]) u

/-- A call changes what is counted and which rehash is due, and nothing else. -/
theorem Step.counters_eq {t u : Traffic} {call : Call} (h : Step t call u) :
    ∃ items bytes rehash?, u.counters = { t.counters with items, bytes, rehash? } := by
  cases h with
  | refusedInsert h => exact ⟨_, _, _, rfl⟩
  | refusedReplace h => exact ⟨_, _, _, rfl⟩
  | insert h =>
    obtain ⟨-, -, rfl⟩ := reserveInsert_ok h
    exact ⟨_, _, _, rfl⟩
  | replace h =>
    obtain ⟨-, bytes, rfl, -⟩ := reserveReplace_ok h
    exact ⟨_, _, _, rfl⟩
  | @commitInsert c es ps n items =>
    obtain ⟨rehash?, hc⟩ := insertCommitted_eq c items
    exact ⟨_, _, _, hc⟩
  | commitReplace => exact ⟨_, _, _, rfl⟩
  | cancelInsert => exact ⟨_, _, _, rfl⟩
  | @cancelReplace c es ps old new =>
    obtain ⟨bytes, hc, -⟩ := cancelReplace_eq c old new
    exact ⟨_, _, _, hc⟩
  | @remove c es ps n c' h =>
    obtain ⟨rehash?, hc⟩ := entryRemoved_ok n (items_pos_of_removed h)
    rw [hc] at h
    cases h
    exact ⟨_, _, _, rfl⟩

theorem Run.counters_eq {t u : Traffic} {calls : List Call} (h : Run t calls u) :
    ∃ items bytes rehash?, u.counters = { t.counters with items, bytes, rehash? } := by
  induction h with
  | nil => exact ⟨_, _, _, rfl⟩
  | snoc _ hlast ih =>
    obtain ⟨items, bytes, rehash?, hc⟩ := ih
    obtain ⟨items', bytes', rehash'?, hlast⟩ := hlast.counters_eq
    rw [hc] at hlast
    exact ⟨items', bytes', rehash'?, hlast⟩

/-- The counters stand for the entries and the reservations, within the limits but for the room taken without asking. -/
structure Tallied (t : Traffic) (reclaimed : Nat) : Prop where
  items : t.counters.items = t.entries.card + t.pending.card
  bytes : t.counters.bytes = UInt64.ofNat t.total
  itemsLimit : ∀ max, t.counters.maxItems? = some max → t.counters.items ≤ max
  bytesLimit : ∀ max, t.counters.maxBytes? = some max → t.total ≤ max + reclaimed ∨ wordLimit ≤ max + reclaimed

theorem total_entry (c : Counters) (n : Nat) (es : Multiset Nat) (ps : Multiset Reservation) :
    total ⟨c, n ::ₘ es, ps⟩ = n + total ⟨c, es, ps⟩ := by
  rw [total, Multiset.sum_cons, Nat.add_assoc]
  rfl

theorem total_pending (c : Counters) (es : Multiset Nat) (p : Reservation) (ps : Multiset Reservation) :
    total ⟨c, es, p ::ₘ ps⟩ = p.size + total ⟨c, es, ps⟩ := by
  rw [total, Multiset.map_cons, Multiset.sum_cons, Nat.add_left_comm]
  rfl

namespace Tallied
variable {t u : Traffic} {c : Counters} {es es' : Multiset Nat} {ps ps' : Multiset Reservation} {k k' m n : Nat}

/-- What is admitted is within the limit, if the bytes have not gone round. -/
theorem admitted (ht : t.Tallied k) (h : ∀ max, t.counters.maxBytes? = some max → t.counters.bytes.toNat + n ≤ max) :
    ∀ max, t.counters.maxBytes? = some max → t.total + n ≤ max + k ∨ wordLimit ≤ max + k := by
  intro max hmax
  have hroom := h max hmax
  rcases ht.bytesLimit max hmax with hle | hround
  · by_cases hsmall : max + k < wordLimit
    · have hexact : t.counters.bytes.toNat = t.total := by
        rw [ht.bytes, UInt64.toNat_ofNat']
        exact Nat.mod_eq_of_lt (Nat.lt_of_le_of_lt hle hsmall)
      omega
    · exact Or.inr (Nat.le_of_not_lt hsmall)
  · exact Or.inr hround

/-- What asks for no room is within the limit, but for what it takes without asking. -/
theorem unasked (ht : t.Tallied k) (hk : k ≤ k') (hm : m + k ≤ t.total + k') :
    ∀ max, t.counters.maxBytes? = some max → m ≤ max + k' ∨ wordLimit ≤ max + k' := by
  intro max hmax
  rcases ht.bytesLimit max hmax with hle | hround
  · exact Or.inl (by omega)
  · exact Or.inr (by omega)

theorem itemsFewer (ht : t.Tallied k) (h : n ≤ t.counters.items) :
    ∀ max, t.counters.maxItems? = some max → n ≤ max :=
  fun max hmax => Nat.le_trans h (ht.itemsLimit max hmax)

theorem items_pos_of_entry (ht : Tallied ⟨c, n ::ₘ es, ps⟩ k) : 0 < c.items := by
  have hitems := ht.items
  rw [Multiset.card_cons] at hitems
  dsimp only at hitems
  omega

theorem items_pos_of_pending {p : Reservation} (ht : Tallied ⟨c, es, p ::ₘ ps⟩ k) : 0 < c.items := by
  have hitems := ht.items
  rw [Multiset.card_cons] at hitems
  dsimp only at hitems
  omega

/-- Counters that have followed the entries and the reservations still stand for them. -/
theorem follow {bytes : UInt64} {items : Nat} {rehash? : Option Rehash} (ht : Tallied ⟨c, es, ps⟩ k)
    (hitems : items + (es.card + ps.card) = c.items + (es'.card + ps'.card))
    (hbytes : bytes + UInt64.ofNat (total ⟨c, es, ps⟩) = c.bytes + UInt64.ofNat (total ⟨c, es', ps'⟩))
    (hfew : ∀ max, c.maxItems? = some max → items ≤ max)
    (hwithin : ∀ max, c.maxBytes? = some max → total ⟨c, es', ps'⟩ ≤ max + k' ∨ wordLimit ≤ max + k') :
    Tallied ⟨{ c with bytes, items, rehash? }, es', ps'⟩ k' := by
  refine ⟨?_, ?_, hfew, hwithin⟩
  · have := ht.items
    dsimp only at this ⊢
    omega
  · have := ht.bytes
    dsimp only at this ⊢
    rw [this] at hbytes
    show bytes = UInt64.ofNat (total ⟨c, es', ps'⟩)
    grind

/-- A put that commits leaves what it had reserved. -/
theorem committed {p : Reservation} (ht : Tallied ⟨c, es, p ::ₘ ps⟩ k) (rehash? : Option Rehash) :
    Tallied ⟨{ c with rehash? }, p.size ::ₘ es, ps⟩ k := by
  have hsame : total ⟨c, p.size ::ₘ es, ps⟩ = total ⟨c, es, p ::ₘ ps⟩ := by rw [total_pending, total_entry]
  refine ht.follow ?_ ?_ ht.itemsLimit (ht.unasked (Nat.le_refl k) ?_)
  · rw [Multiset.card_cons, Multiset.card_cons]
    omega
  · rw [hsame]
  · rw [hsame]

theorem step {call : Call} (ht : t.Tallied k) (h : Step t call u) : u.Tallied (k + call.reclaims) := by
  cases h with
  | refusedInsert h => exact ht
  | refusedReplace h => exact ht
  | @insert c es ps n items c' h =>
    obtain ⟨hitems, hbytes, rfl⟩ := reserveInsert_ok h
    refine ht.follow ?_ ?_ hitems ?_
    · rw [Multiset.card_cons]
      omega
    · rw [total_pending, UInt64.ofNat_add]
      show _ = c.bytes + (UInt64.ofNat n + _)
      grind
    · rw [total_pending, Nat.add_comm]
      exact ht.admitted hbytes
  | @replace c es ps old new c' h =>
    obtain ⟨hroom, bytes, rfl, hbytes⟩ := reserveReplace_ok h
    refine ht.follow ?_ ?_ ht.itemsLimit ?_
    · rw [Multiset.card_cons, Multiset.card_cons]
      omega
    · rw [total_pending, total_entry, UInt64.ofNat_add, UInt64.ofNat_add]
      show _ = c.bytes + (UInt64.ofNat new + _)
      grind
    · rw [total_pending]
      by_cases hgrow : old < new
      · have hadmitted := ht.admitted (fun max hmax => hroom max hmax hgrow)
        have hsame : total ⟨c, old ::ₘ es, ps⟩ + (new - old) = new + total ⟨c, es, ps⟩ := by
          rw [total_entry]
          omega
        rw [hsame] at hadmitted
        exact hadmitted
      · refine ht.unasked (Nat.le_refl k) ?_
        rw [total_entry]
        show new + _ + k ≤ _
        omega
  | @commitInsert c es ps n items =>
    obtain ⟨rehash?, hc⟩ := insertCommitted_eq c items
    rw [hc]
    exact ht.committed rehash?
  | @commitReplace c es ps old new => exact ht.committed c.rehash?
  | @cancelInsert c es ps n items =>
    have hsome : 0 < c.items := ht.items_pos_of_pending
    refine ht.follow ?_ ?_ (ht.itemsFewer (Nat.sub_le ..)) (ht.unasked (Nat.le_refl k) ?_)
    · rw [Multiset.card_cons]
      omega
    · rw [total_pending, UInt64.ofNat_add]
      show c.bytes - UInt64.ofNat n + (UInt64.ofNat n + _) = _
      grind
    · rw [total_pending]
      exact Nat.add_le_add_right (Nat.le_add_left ..) k
  | @cancelReplace c es ps old new =>
    obtain ⟨bytes, hc, hbytes⟩ := cancelReplace_eq c old new
    rw [hc]
    refine ht.follow ?_ ?_ ht.itemsLimit (ht.unasked (Nat.le_add_right ..) ?_)
    · rw [Multiset.card_cons, Multiset.card_cons]
      omega
    · rw [total_pending, total_entry, UInt64.ofNat_add, UInt64.ofNat_add]
      show bytes + (UInt64.ofNat new + _) = _
      grind
    · rw [total_pending, total_entry]
      show old + _ + k ≤ new + _ + (k + (old - new))
      omega
  | @remove c es ps n c' h =>
    obtain ⟨rehash?, hc⟩ := entryRemoved_ok n ht.items_pos_of_entry
    rw [hc] at h
    cases h
    have hsome : 0 < c.items := ht.items_pos_of_entry
    refine ht.follow ?_ ?_ (ht.itemsFewer (Nat.sub_le ..)) (ht.unasked (Nat.le_refl k) ?_)
    · rw [Multiset.card_cons]
      omega
    · rw [total_entry, UInt64.ofNat_add]
      grind
    · rw [total_entry]
      exact Nat.add_le_add_right (Nat.le_add_left ..) k

theorem idle (thresholds? : Option Thresholds) (maxBytes? maxItems? : Option Nat) :
    (Traffic.idle thresholds? maxBytes? maxItems?).Tallied 0 :=
  ⟨rfl, rfl, fun _ _ => Nat.zero_le _, fun _ _ => Or.inl (Nat.zero_le _)⟩

theorem run {calls : List Call} (ht : t.Tallied k) (h : Run t calls u) :
    u.Tallied (k + (calls.map Call.reclaims).sum) := by
  induction h with
  | nil => exact ht
  | snoc _ hlast ih =>
    rw [List.map_append, List.sum_append, List.map_singleton, List.sum_singleton, ← Nat.add_assoc]
    exact ih.step hlast

/-- If the limit leaves the word, the bytes have not gone round. -/
theorem exact {max : Nat} (ht : t.Tallied k) (hmax : t.counters.maxBytes? = some max) (h : max + k < wordLimit) :
    t.counters.bytes.toNat = t.total := by
  rw [ht.bytes, UInt64.toNat_ofNat']
  rcases ht.bytesLimit max hmax with hle | hround
  · exact Nat.mod_eq_of_lt (Nat.lt_of_le_of_lt hle h)
  · exact absurd h (Nat.not_lt.mpr hround)

theorem bytes_le {max : Nat} (ht : t.Tallied k) (hmax : t.counters.maxBytes? = some max) :
    t.counters.bytes.toNat ≤ max + k := by
  rcases ht.bytesLimit max hmax with hle | hround
  · rw [ht.bytes, UInt64.toNat_ofNat']
    exact Nat.le_trans (Nat.mod_le ..) hle
  · exact Nat.le_trans (Nat.le_of_lt t.counters.bytes.toNat_lt) hround

theorem removable (ht : t.Tallied k) (hn : n ∈ t.entries) : ∃ c, entryRemoved n t.counters = .ok () c := by
  obtain ⟨c, es, ps⟩ := t
  obtain ⟨rest, rfl⟩ := Multiset.exists_cons_of_mem hn
  obtain ⟨rehash?, hc⟩ := entryRemoved_ok n ht.items_pos_of_entry
  exact ⟨_, hc⟩

/-- A call from within the limit passes it by no more than it takes without asking. -/
theorem passing {call : Call} {max : Nat} (ht : t.Tallied k)
    (hmax : t.counters.maxBytes? = some max) (hround : max + k < wordLimit) (hwithin : t.counters.bytes.toNat ≤ max)
    (h : Step t call u) : u.counters.bytes.toNat ≤ max + call.reclaims := by
  -- Within the limit, nothing that was taken before counts.
  have hfresh : t.Tallied 0 := by
    refine ⟨ht.items, ht.bytes, ht.itemsLimit, fun other hother => Or.inl ?_⟩
    rw [hmax] at hother
    cases hother
    rw [← ht.exact hmax hround]
    exact hwithin
  obtain ⟨items, bytes, rehash?, hc⟩ := h.counters_eq
  have hsame : u.counters.maxBytes? = some max := by
    rw [hc]
    exact hmax
  have hnext := (hfresh.step h).bytes_le hsame
  rwa [Nat.zero_add] at hnext

end Tallied

/-- What can be relied on at every moment, whatever the order of the calls, where the puts that were cancelled have
    taken back `reclaimed` bytes that they had given away. -/
structure Orderly (maxBytes? maxItems? : Option Nat) (t : Traffic) (reclaimed : Nat) : Prop where
  items : t.counters.items = t.entries.card + t.pending.card
  fewItems : ∀ max, maxItems? = some max → t.counters.items ≤ max
  bytes : t.counters.bytes.toNat = t.total % wordLimit
  fewBytes : ∀ max, maxBytes? = some max → t.counters.bytes.toNat ≤ max + reclaimed
  exactBytes : ∀ max, maxBytes? = some max → max + reclaimed < wordLimit → t.counters.bytes.toNat = t.total
  quiet : t.pending = 0 →
    t.counters.items = t.entries.card ∧ t.counters.bytes.toNat = t.entries.sum % wordLimit
  removable : ∀ n ∈ t.entries, ∃ c, entryRemoved n t.counters = .ok () c
  /-- The one call that can pass the limit cancels a replacement by a smaller record. -/
  passing : ∀ max call u, maxBytes? = some max → max + reclaimed < wordLimit → t.counters.bytes.toNat ≤ max →
    Step t call u → max < u.counters.bytes.toNat →
      ∃ old new, call = .cancel (.replace old new) ∧ new < old ∧ u.counters.bytes.toNat ≤ max + (old - new)

theorem orderly_of_run {thresholds? : Option Thresholds} {maxBytes? maxItems? : Option Nat} {calls : List Call}
    {t : Traffic} (h : Run (idle thresholds? maxBytes? maxItems?) calls t) :
    Orderly maxBytes? maxItems? t (calls.map Call.reclaims).sum := by
  have ht := (Tallied.idle thresholds? maxBytes? maxItems?).run h
  rw [Nat.zero_add] at ht
  have hbytes : t.counters.bytes.toNat = t.total % wordLimit := by
    rw [ht.bytes]
    exact UInt64.toNat_ofNat'
  obtain ⟨items, bytes, rehash?, hc⟩ := h.counters_eq
  have hmaxBytes : t.counters.maxBytes? = maxBytes? := by
    rw [hc]
    rfl
  have hmaxItems : t.counters.maxItems? = maxItems? := by
    rw [hc]
    rfl
  refine
    { items := ht.items
      fewItems := fun max hmax => ht.itemsLimit max (hmaxItems.trans hmax)
      bytes := hbytes
      fewBytes := fun max hmax => ht.bytes_le (hmaxBytes.trans hmax)
      exactBytes := fun max hmax => ht.exact (hmaxBytes.trans hmax)
      quiet := ?_
      removable := fun n hn => ht.removable hn
      passing := ?_ }
  · intro hquiet
    have hitems := ht.items
    rw [hquiet, Multiset.card_zero, Nat.add_zero] at hitems
    rw [total, hquiet, Multiset.map_zero, Multiset.sum_zero, Nat.add_zero] at hbytes
    exact ⟨hitems, hbytes⟩
  · intro max call u hmax hround hwithin hstep hpast
    have hover := ht.passing (hmaxBytes.trans hmax) hround hwithin hstep
    have htaken : 0 < call.reclaims := by omega
    obtain ⟨old, new, rfl, hless⟩ := Call.reclaims_pos htaken
    exact ⟨old, new, rfl, hless, hover⟩

/-- Of 40 bytes, 20 are given away by a replacement, taken by another put, and taken back. -/
theorem overshot_by_cancelling :
    ∃ t, Run (idle none (some 40) none)
        [.insert 40, .commit (.insert 40 1), .replace 40 20, .insert 20, .commit (.insert 20 2),
          .cancel (.replace 40 20)] t ∧
      t.pending = 0 ∧ t.counters.bytes.toNat = 60 ∧ Orderly (some 40) none t 20 := by
  have hrun : Run (idle none (some 40) none)
      [.insert 40, .commit (.insert 40 1), .replace 40 20, .insert 20, .commit (.insert 20 2),
        .cancel (.replace 40 20)] ⟨{ items := 2, bytes := 60, maxBytes? := some 40 }, {40, 20}, 0⟩ :=
    ((((((Run.nil _).snoc (.insert rfl)).snoc .commitInsert).snoc (.replace rfl)).snoc (.insert rfl)).snoc
      .commitInsert).snoc .cancelReplace
  exact ⟨_, hrun, rfl, rfl, orderly_of_run hrun⟩

end Traffic

end RecordStore.Counters
