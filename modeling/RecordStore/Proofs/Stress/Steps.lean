import RecordStore.Proofs.Schemas
import RecordStore.Proofs.Store.Commuting
import RecordStore.Stress.Workload

/-! # Steps of the stress workload

While entries last for ever a step of a worker is an errand about a key of its own, which does not fail. No two workers
have a key in common, since it is written with their numbers. -/

namespace RecordStore.Stress

open Store (Errand)

variable {o : Options} {worker worker' n n' op : Nat}

/-! ### Keys -/

theorem toList_keyText (worker n : Nat) :
    (s!"w{worker}-{n}").toList = ('w' :: Nat.toDigits 10 worker) ++ '-' :: Nat.toDigits 10 n := by
  have hword (n : Nat) : (toString n).toList = Nat.toDigits 10 n := by
    rw [show toString n = n.repr from rfl, Nat.repr_eq_ofList_toDigits, String.toList_ofList]
  have hfirst : (toString "w").toList = ['w'] := rfl
  have hdash : (toString "-").toList = ['-'] := rfl
  simp only [String.toList_append, hword, hfirst, hdash]
  simp

theorem dash_notMem (n : Nat) : '-' ∉ Nat.toDigits 10 n := fun h =>
  absurd (Nat.isDigit_of_mem_toDigits (by decide) (by decide) h) (by decide)

/-- The key tells the worker and the number. -/
theorem keyOf_inj : keyOf worker n = keyOf worker' n' ↔ worker = worker' ∧ n = n' := by
  refine ⟨fun h => ?_, fun h => by rw [h.1, h.2]⟩
  have hdash (n : Nat) : '-' ∉ 'w' :: Nat.toDigits 10 n := by
    rw [List.mem_cons, not_or]
    exact ⟨by decide, dash_notMem n⟩
  have hdigits {n n' : Nat} (h : Nat.toDigits 10 n = Nat.toDigits 10 n') : n = n' := by
    rw [← Nat.ofDigitChars_ten_toDigits (n := n), h, Nat.ofDigitChars_ten_toDigits]
  have htext := congrArg String.toList (Value.str.inj h)
  rw [toList_keyText, toList_keyText, List.append_cons_inj_of_notMem (hdash _) (dash_notMem _)] at htext
  exact ⟨hdigits (List.cons.inj htext.1).2, hdigits htext.2.2⟩

theorem utf8ByteSize_repr {e : Nat} (hn : n < 10 ^ (e + 1)) : n.repr.utf8ByteSize ≤ 4 * (e + 1) := by
  induction e generalizing n with
  | zero =>
    rw [Nat.repr_of_lt (by omega), String.utf8ByteSize_singleton]
    exact Char.utf8Size_le_four _
  | succ e ih =>
    by_cases hsmall : n < 10
    · rw [Nat.repr_of_lt hsmall, String.utf8ByteSize_singleton]
      exact (Char.utf8Size_le_four _).trans (by omega)
    · rw [Nat.repr_of_ge (by omega), String.utf8ByteSize_append, String.utf8ByteSize_singleton]
      have hfront := @ih (n / 10) (by rw [Nat.pow_succ] at hn; omega)
      have hlast := Char.utf8Size_le_four (n % 10).digitChar
      omega

theorem length_utf8 (s : String) : (utf8 s).length = s.utf8ByteSize := rfl

/-- The text of a key is short, as its numbers are words. -/
theorem length_keyText (hw : worker < wordLimit) (hn : n < wordLimit) : (utf8 s!"w{worker}-{n}").length ≤ 162 := by
  have hword {n : Nat} (hn : n < wordLimit) : (toString n).utf8ByteSize ≤ 80 :=
    utf8ByteSize_repr (e := 19) (hn.trans (by decide))
  have hworker := hword hw
  have hnumber := hword hn
  rw [length_utf8]
  simp only [String.utf8ByteSize_append]
  have hfirst : (toString "w").utf8ByteSize = 1 := rfl
  have hdash : (toString "-").utf8ByteSize = 1 := rfl
  omega

/-! ### Accounts -/

/-- An account is written, under its key. -/
theorem encode_account (hw : worker < wordLimit) (hn : n < wordLimit) (op : Nat) :
    ∃ payload, accounts.encode (account (keyOf worker n) worker op) = .ok payload ∧
      Payload.key payload = .ok (keyOf worker n) ∧ payload.length < Record.lengthLimit := by
  have hlength := length_keyText hw hn
  have hfits : accounts.Fits (account (keyOf worker n) worker op) := by
    refine ⟨.cons (Or.inr rfl) (.cons (Or.inr rfl) (.cons (Or.inr rfl) (.cons (Or.inr rfl) .nil))),
      show 4 ≤ Payload.maxFields by decide, (fun h => by cases h), fun v hv b hb => ?_⟩
    simp only [account, List.mem_cons, List.not_mem_nil, or_false] at hv
    rcases hv with rfl | rfl | rfl | rfl
    · cases hb
      exact Nat.lt_of_le_of_lt hlength (by decide)
    · cases hb
    · cases hb
    · cases hb
  refine ⟨_, Schema.encode_eq_ok_iff.mpr ⟨hfits, rfl⟩, hfits.parses.key (fun h => by cases h), ?_⟩
  rw [Schema.length_encode]
  show 2 + (5 + (utf8 _).length + (9 + (9 + (2 + 0)))) < _
  exact Nat.lt_of_le_of_lt (by omega) (show 189 < Record.lengthLimit by decide)

/-! ### Steps -/

/-- What a step asks. -/
def errand (o : Options) (worker op : Nat) : Errand :=
  let key := keyOf worker (keyNumber o op)
  if op % 10 < 4 then .putEntity (account key worker op)
  else if op % 10 < 8 then .get key
  else if op % 10 < 9 then .remove key
  else if op % 10000 = 9 then .matching key
  else .contains key

/-- The number of payloads in a response. -/
def matchCount (response : Store.Response) : Nat :=
  match response with
  | .payloads bs => bs.card
  | _ => 0

theorem keyNumber_lt (o : Options) (op : Nat) : keyNumber o op < wordLimit :=
  Nat.lt_of_le_of_lt (Nat.mod_le _ _) (UInt64.toNat_lt _)

theorem key?_errand (hw : worker < wordLimit) (op : Nat) :
    (errand o worker op).key? accounts = some (keyOf worker (keyNumber o op)) := by
  obtain ⟨payload, hencode, hkey, -⟩ := encode_account hw (keyNumber_lt o op) op
  unfold errand
  dsimp only
  split
  · rw [Errand.key?, hencode]
    show (Payload.key payload).toOption = _
    rw [hkey]
    rfl
  · split_ifs <;> rfl

theorem bearable_errand {s : Store} (hs : s.schema = accounts) (hw : worker < wordLimit) (op : Nat) :
    (errand o worker op).Bearable s := by
  obtain ⟨payload, hencode, -, hlength⟩ := encode_account hw (keyNumber_lt o op) op
  intro payload' hoffers
  rw [hs] at hoffers
  unfold errand at hoffers
  dsimp only at hoffers
  split at hoffers
  · obtain ⟨he, -⟩ := hoffers
    rw [hencode] at he
    cases he
    exact Or.inl hlength
  · split_ifs at hoffers
    all_goals exact hoffers.elim

/-- Whatever is stored, a step is answered. -/
theorem carryOut_errand (hw : worker < wordLimit) (op : Nat) (f : Value → Option Bytes) (e : Failure) :
    ((errand o worker op).carryOut accounts f).1 ≠ .failed e := by
  obtain ⟨payload, hencode, hkey, hlength⟩ := encode_account hw (keyNumber_lt o op) op
  rw [Errand.carryOut_of_key (key?_errand hw op)]
  unfold errand
  dsimp only
  split
  · simp only [Errand.exchange, hencode, Errand.putOver, hkey, if_pos hlength]
    exact fun h => by cases h
  · split_ifs
    all_goals exact fun h => by cases h

/-- What is answered is counted. -/
theorem counted {α : Type} {reply : α → Store.Response} {x : Store.Op α} {count : α → Nat} {s : Store}
    (hcount : ∀ a, matchCount (reply a) = count a) (hanswered : ∀ e, (Store.respond reply x s).1 ≠ .failed e) :
    (do let a ← x; return count a : Store.Op Nat) s =
      .ok (matchCount (Store.respond reply x s).1) (Store.respond reply x s).2 := by
  cases hx : x s with
  | ok a s' =>
    rw [Store.respond_ok hx, hcount]
    exact Action.bind_ok hx
  | error e s' => exact absurd (congrArg Prod.fst (Store.respond_error hx)) (hanswered e)

/-- A step does what is asked and counts the matches. -/
theorem step_of_answer {s : Store} (hforever : o.ttlMillis = 0)
    (hanswered : ∀ e, (Store.answer (errand o worker op).request s).1 ≠ .failed e) :
    step o worker op s = .ok (matchCount (Store.answer (errand o worker op).request s).1)
      (Store.answer (errand o worker op).request s).2 := by
  have hlifetime : lifetime? o = none := if_pos hforever
  unfold errand at hanswered ⊢
  unfold step
  rw [hlifetime]
  dsimp only at hanswered ⊢
  split_ifs at hanswered ⊢
  · exact counted (fun _ => rfl) hanswered
  · exact counted (fun _ => rfl) hanswered
  · exact counted (fun _ => rfl) hanswered
  · exact counted (fun bs => Multiset.coe_card bs) hanswered
  · exact counted (fun _ => rfl) hanswered

end RecordStore.Stress
