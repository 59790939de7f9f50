import RecordStore.Proofs.Store.Limits
import RecordStore.Proofs.Store.LossByEviction

/-! # What a request does

Everything that a request can do to the records of a store, said once: it stores one, is refused, removes one or all,
or looks, which evicts some of those that are over. -/

namespace RecordStore.Store

open RecordStore.Action

variable {s : Store} {q : Request}

namespace Request

/-- The payload and the lifetime that a request wants to have stored. -/
def stored? (schema : Schema) : Request → Option (Bytes × Lifetime)
  | put payload ttl => some (payload, ttl)
  | putEntity e lifetime? =>
    match Lifetime.ofDuration? lifetime?, schema.encode e with
    | .ok ttl, .ok payload => some (payload, ttl)
    | _, _ => none
  | _ => none

def Puts : Request → Prop
  | put .. | putEntity .. => True
  | _ => False

/-- Lookups, searches and sweeps. -/
def Looks : Request → Prop
  | contains .. | getRecord .. | get .. | getEntity .. | matching .. | fetch .. | evictExpired => True
  | _ => False

end Request

inductive Does (s : Store) : Request → Response → Store → Prop
  | stores {q payload ttl k h n s'} (wanted : q.stored? s.schema = some (payload, ttl))
      (key : Payload.key payload = .ok k)
      (admitted : ∀ reason, ¬ s.Declines k (Record.sizeFor payload.length) reason)
      (leads : Leads s s' (⟨payload, s.clock.now, ttl, h⟩ ::ₘ s.records.filter (·.key? ≠ some k)))
      (silent : Silent s s') : Does s q (.number n) s'
  | refuses {q e s'} (puts : q.Puts) (leads : Leads s s' s.records) (silent : Silent s s') : Does s q (.failed e) s'
  | removes {k n s'} (leads : Leads s s' (s.records.filter (·.key? ≠ some k))) (silent : Silent s s') :
      Does s (.remove k) (.number n) s'
  | clears {s'} (leads : Leads s s' 0) (silent : Silent s s') : Does s .destroy .done s'
  | looks {q response s' gone} (looks : q.Looks) (evicts : Evicts s s' gone) : Does s q response s'
  | sets {wall} : Does s (.setClock wall) .done { s with clock := s.clock.set wall }

theorem put_does {payload : Bytes} {ttl : Lifetime} (hs : s.WellFormed) (hq : q.Puts)
    (hfits : payload.length < Record.lengthLimit) (hwanted : q.stored? s.schema = some (payload, ttl)) :
    Does s q (respond .number (put payload ttl) s).1 (respond .number (put payload ttl) s).2 := by
  have hsilent := silent_put payload ttl
  cases hk : Payload.key payload with
  | error fault =>
    obtain ⟨s', hrun, hleads⟩ := put_of_no_key hs ttl hk
    rw [respond_error hrun]
    exact .refuses hq hleads (hsilent.error hrun)
  | ok k =>
    rcases put_cases hs ttl hfits hk with ⟨e, s', -, hrun, hleads⟩ | ⟨h, s', hrun, hleads⟩
    · rw [respond_error hrun]
      exact .refuses hq hleads (hsilent.error hrun)
    · rw [respond_ok hrun]
      refine .stores hwanted hk (fun reason hdeclined => ?_) hleads (hsilent.ok hrun)
      rw [put_declined hs ttl hk hdeclined] at hrun
      cases hrun

theorem putEntity_does {e : Entity} {lifetime? : Option Duration} (hs : s.WellFormed)
    (hfits : (Request.putEntity e lifetime?).Fits s.schema) :
    Does s (.putEntity e lifetime?) (answer (.putEntity e lifetime?) s).1 (answer (.putEntity e lifetime?) s).2 := by
  rw [answer]
  rcases putEntity_cases s e lifetime? with
    ⟨fault, -, hrun⟩ | ⟨ttl, fault, -, -, hrun⟩ | ⟨ttl, payload, httl, he, hrun⟩
  · rw [respond_error hrun]
    exact .refuses trivial (Leads.refl hs) (refl s)
  · rw [respond_error hrun]
    exact .refuses trivial (Leads.refl hs) (refl s)
  · have hwanted : (Request.putEntity e lifetime?).stored? s.schema = some (payload, ttl) := by
      simp only [Request.stored?, httl, he]
    have hput := put_does hs (show (Request.putEntity e lifetime?).Puts from trivial) (hfits payload he) hwanted
    unfold respond at hput ⊢
    rw [hrun]
    exact hput

theorem looks_does {α : Type} {reply : α → Response} {x : Op α} (hs : s.WellFormed) (hq : q.Looks) (hx : Moves Sheds x) :
    Does s q (respond reply x s).1 (respond reply x s).2 := by
  obtain ⟨gone, hgone⟩ := hx s hs
  rw [← respond_snd reply x s] at hgone
  exact .looks hq hgone

theorem answer_does (hs : s.WellFormed) (hq : q.Fits s.schema) : Does s q (answer q s).1 (answer q s).2 := by
  cases q with
  | put payload ttl => exact put_does hs trivial hq rfl
  | putEntity e lifetime? => exact putEntity_does hs hq
  | contains key => exact looks_does hs trivial (sheds_contains key)
  | getRecord key => exact looks_does hs trivial (sheds_getRecord? key)
  | get key => exact looks_does hs trivial (sheds_get? key)
  | getEntity key => exact looks_does hs trivial (sheds_getEntity? key)
  | matching tm => exact looks_does hs trivial (sheds_matching tm)
  | fetch tm => exact looks_does hs trivial (sheds_fetch tm)
  | evictExpired => exact looks_does hs trivial sheds_evictExpired
  | remove key =>
    obtain ⟨s', hrun, hleads⟩ := remove_ok hs key
    rw [answer, respond_ok hrun]
    exact .removes hleads ((silent_remove key).ok hrun)
  | destroy =>
    obtain ⟨s', hrun, hleads⟩ := destroy_ok hs
    rw [answer, respond_ok hrun]
    exact .clears hleads (silent_destroy.ok hrun)
  | setClock wall => exact .sets

/-- A property that every request keeps holds after any requests. -/
theorem run_keeps {P : Store → Prop} {schema : Schema}
    (hstep : ∀ {s q response s'}, s.WellFormed → P s → Does s q response s' → P s') {requests : List Request}
    (hs : s.WellFormed) (hschema : s.schema = schema) (hfits : ∀ q ∈ requests, q.Fits schema) (h : P s) :
    P (run requests s).2 := by
  induction requests generalizing s with
  | nil => exact h
  | cons q requests ih =>
    have hq : q.Fits s.schema := hschema ▸ hfits q List.mem_cons_self
    obtain ⟨clock, rs, hleads⟩ := answer_leads hs hq
    have hschema' : (answer q s).2.schema = s.schema := hleads.keeps.schema
    exact ih hleads.wellFormed (hschema'.trans hschema) (fun q' hq' => hfits q' (List.mem_cons_of_mem q hq'))
      (hstep hs h (answer_does hs hq))

end RecordStore.Store
