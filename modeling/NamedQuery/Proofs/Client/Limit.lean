import NamedQuery.Proofs.Client.Cursor

/-!
# Runs with a limit

A run over a stream takes one delivery after the other, and it ends in one of three ways: as many
values have come as were asked for, or the stream is over, or it failed. What the run has seen is
then the first part of what the cursor had still to give.

* `Cursor.values`, `Cursor.last`: what a cursor has still to give, at any time of its life.
* `runUntil_eq`: what a run sees, and which of the three ends it has.
-/

namespace NamedQuery

/-! ## Limits -/

namespace Limit

/-- As many items as a limit allows. -/
def take {α : Type} : Option Nat → List α → List α
  | none, xs => xs
  | some n, xs => xs.take n

/-- Whether so many items are as many as the limit asks for. -/
def isMet (limit : Option Nat) (count : Nat) : Bool := limit.any (· ≤ count)

variable {α β : Type} {n : Nat} {limit : Option Nat}

theorem isMet_zero (h : limit ≠ some 0) : isMet limit 0 = false := by
  cases limit with
  | none => rfl
  | some n => exact decide_eq_false fun hn => h (congrArg some (Nat.le_zero.mp hn))

theorem isMet_pred (h : limit ≠ some 0) :
    isMet (limit.map (· - 1)) n = isMet limit (n + 1) := by
  cases limit with
  | none => rfl
  | some m =>
    have hm : m ≠ 0 := fun hm => h (congrArg some hm)
    show decide (m - 1 ≤ n) = decide (m ≤ n + 1)
    exact decide_eq_decide.mpr (by omega)

theorem pred_ne_zero (hzero : limit ≠ some 0) (hone : limit ≠ some 1) :
    limit.map (· - 1) ≠ some 0 := by
  cases limit with
  | none => nofun
  | some m =>
    intro h
    have hm : m ≠ 0 := fun hm => hzero (congrArg some hm)
    have hm' : m ≠ 1 := fun hm => hone (congrArg some hm)
    have hpred : m - 1 = 0 := Option.some.inj h
    omega

theorem take_cons_pred (x : α) (xs : List α) (h : limit ≠ some 0) :
    take limit (x :: xs) = x :: take (limit.map (· - 1)) xs := by
  cases limit with
  | none => rfl
  | some m =>
    obtain ⟨k, rfl⟩ := Nat.exists_eq_succ_of_ne_zero fun hm => h (congrArg some hm)
    rfl

theorem take_nil : take limit ([] : List α) = [] := by
  cases limit with
  | none => rfl
  | some n => exact List.take_nil

theorem exists_of_isMet (h : isMet limit n = true) : ∃ m, limit = some m ∧ m ≤ n := by
  cases limit with
  | none => cases h
  | some m => exact ⟨m, rfl, of_decide_eq_true h⟩

theorem lt_of_not_met {m : Nat} (h : isMet (some m) n = false) : n < m :=
  Nat.lt_of_not_le (of_decide_eq_false h)

/-- A limit that is not met leaves everything. -/
theorem take_of_not_met {xs : List α} (h : isMet limit xs.length = false) : take limit xs = xs := by
  cases limit with
  | none => rfl
  | some n => exact List.take_of_length_le (Nat.le_of_lt (lt_of_not_met h))

/-! ### What is left of a limit -/

theorem isMet_of_le {m : Nat} (h : isMet limit m = true) (hle : m ≤ n) : isMet limit n = true := by
  obtain ⟨k, rfl, hk⟩ := exists_of_isMet h
  exact decide_eq_true (Nat.le_trans hk hle)

theorem take_sub_of_met (xs : List α) (h : isMet limit n = true) :
    take (limit.map (· - n)) xs = [] := by
  obtain ⟨k, rfl, hk⟩ := exists_of_isMet h
  show xs.take (k - n) = []
  rw [Nat.sub_eq_zero_of_le hk, List.take_zero]

theorem sub_ne_zero (h : isMet limit n = false) : limit.map (· - n) ≠ some 0 := by
  cases limit with
  | none => nofun
  | some m =>
    intro hzero
    have hlt := lt_of_not_met h
    have hsub : m - n = 0 := Option.some.inj hzero
    omega

theorem sub_succ (limit : Option Nat) (n : Nat) :
    (limit.map (· - n)).map (· - 1) = limit.map (· - (n + 1)) := by
  cases limit <;> rfl

theorem sub_zero (limit : Option Nat) : limit.map (· - 0) = limit := by
  cases limit <;> rfl

theorem take_map (f : α → β) (xs : List α) : take limit (xs.map f) = (take limit xs).map f := by
  cases limit with
  | none => rfl
  | some n => exact List.map_take.symm

theorem take_isPrefix (limit : Option Nat) (xs : List α) : take limit xs <+: xs := by
  cases limit with
  | none => exact List.prefix_rfl
  | some n => exact List.take_prefix n xs

/-- A larger limit allows more. -/
theorem take_isPrefix_take {limit' : Option Nat} (h : ∀ n, limit' = some n → isMet limit n = true)
    (xs : List α) : take limit xs <+: take limit' xs := by
  cases limit' with
  | none => exact take_isPrefix limit xs
  | some n =>
    obtain ⟨m, rfl, hm⟩ := exists_of_isMet (h n rfl)
    exact List.take_prefix_take_left hm

end Limit

namespace Cursor

variable {c : Cursor} {limit : Option Nat}

/-! ## What a cursor has still to give -/

/-- The values that are still to come. -/
def values (c : Cursor) : List Value := c.incoming.elim [] fun i => readable i.messages

/-- The delivery behind them. -/
def last (c : Cursor) : Delivery := c.incoming.elim .finished fun i => ending i.final i.messages

theorem values_of_incoming {i : Incoming} (h : c.incoming = some i) :
    c.values = readable i.messages := by
  rw [values, h]
  rfl

theorem last_of_incoming {i : Incoming} (h : c.incoming = some i) :
    c.last = ending i.final i.messages := by
  rw [last, h]
  rfl

theorem values_of_closed (h : c.incoming = none) : c.values = [] := by
  rw [values, h]
  rfl

theorem last_of_closed (h : c.incoming = none) : c.last = .finished := by
  rw [last, h]
  rfl

/-- The next delivery is the last one, or it is the first of the values. -/
theorem next_last_or_value (c : Cursor) :
    (c.values = [] ∧ c.next.1 = c.last ∧ c.next.2.received = c.received) ∨
    ∃ v vs c', c.values = v :: vs ∧ c.next = (.item v, c') ∧ c'.values = vs ∧ c'.last = c.last ∧
      c'.received = c.received + 1 := by
  cases hi : c.incoming with
  | none =>
    rw [values_of_closed hi, last_of_closed hi, next_of_closed hi]
    exact .inl ⟨rfl, rfl, rfl⟩
  | some i =>
    obtain ⟨ms, final, held⟩ := i
    rw [values_of_incoming hi, last_of_incoming hi]
    cases ms with
    | nil =>
      rw [next_of_empty hi]
      exact .inl ⟨rfl, rfl, rfl⟩
    | cons m ms =>
      cases hm : receiveElement m with
      | error status =>
        rw [next_of_error hi hm, readable_of_error hm, ending_of_error final hm]
        exact .inl ⟨rfl, rfl, rfl⟩
      | ok v =>
        rw [next_of_value hi hm, readable_of_ok hm, ending_of_ok final hm]
        exact .inr ⟨v, _, _, rfl, rfl, rfl, rfl, rfl⟩

theorem isItem_last (c : Cursor) : c.last.isItem = false := by
  rw [last]
  cases c.incoming with
  | none => rfl
  | some i =>
    rcases ending_cases i.final i.messages with ⟨-, h⟩ | ⟨m, status, -, -, h⟩
    · show (ending i.final i.messages).isItem = false
      rw [h]
      cases i.final.isOk <;> rfl
    · show (ending i.final i.messages).isItem = false
      rw [h]
      rfl

/-- Deliveries are the values in turn, then the last one, and then ends. -/
theorem deliver_eq (c : Cursor) (n : Nat) :
    (c.deliver n).1 = (c.values.map Delivery.item ++ [c.last]).take n ++
      List.replicate (n - (c.values.length + 1)) .finished := by
  cases hi : c.incoming with
  | none =>
    rw [deliver_of_closed n hi, values_of_closed hi, last_of_closed hi]
    cases n with
    | zero => rfl
    | succ n => simp [List.replicate_succ]
  | some i =>
    rw [(c.delivers n hi).deliveries, values_of_incoming hi, last_of_incoming hi,
      Incoming.deliveries, List.length_append, List.length_map]
    rfl

/-- The values in front of the last delivery. -/
theorem deliver_of_le {n : Nat} (h : n ≤ c.values.length) :
    (c.deliver n).1 = (c.values.take n).map .item := by
  rw [deliver_eq, List.take_append_of_le_length (by rwa [List.length_map]), List.map_take,
    Nat.sub_eq_zero_of_le (by omega)]
  exact List.append_nil _

/-- All values, and the last delivery. -/
theorem deliver_succ_length (c : Cursor) :
    (c.deliver (c.values.length + 1)).1 = c.values.map .item ++ [c.last] := by
  rw [deliver_eq, List.take_of_length_le (by simp), Nat.sub_self]
  exact List.append_nil _

/-! ## Runs -/

/-- How a run ends with the last delivery of a cursor that has given so many values. -/
def Run.ended (count : Nat) : Delivery → Except Status Nat
  | .failed status => .error status
  | _ => .ok count

theorem runUntil_of_last (limit : Option Nat) (h : c.next.1.isItem = false) :
    c.runUntil limit = ⟨[], Run.ended c.next.2.received c.next.1⟩ := by
  rw [runUntil]
  split
  · rename_i hnext
    rw [hnext]
    rfl
  · rename_i hnext
    rw [hnext]
    rfl
  · rename_i hnext
    rw [hnext] at h
    cases h

theorem runUntil_of_item {v : Value} {c' : Cursor} (h : c.next = (.item v, c')) :
    c.runUntil limit = if limit = some 1 then ⟨[v], .ok c'.received⟩
      else ⟨v :: (c'.runUntil (limit.map (· - 1))).seen,
        (c'.runUntil (limit.map (· - 1))).result⟩ := by
  rw [runUntil]
  split
  · rename_i hnext
    cases h.symm.trans hnext
  · rename_i hnext
    cases h.symm.trans hnext
  · rename_i hnext
    cases h.symm.trans hnext
    split
    · rfl
    · rename_i hlimit
      rw [if_neg hlimit]

/-- **What a run sees and how it ends.** It sees the values up to the limit. If the limit was met it
ends well, whatever would have come then; otherwise it ends as the cursor does. -/
theorem runUntil_eq (c : Cursor) (limit : Option Nat) (hlimit : limit ≠ some 0) :
    c.runUntil limit = ⟨Limit.take limit c.values,
      if Limit.isMet limit c.values.length then
        .ok (c.received + (Limit.take limit c.values).length)
      else Run.ended (c.received + c.values.length) c.last⟩ := by
  -- each value that is taken makes the limit smaller by one, and the run ends before it is zero
  generalize hvs : c.values = vs
  induction vs generalizing c limit with
  | nil =>
    rcases next_last_or_value c with ⟨-, hlast, hreceived⟩ | ⟨v, vs, c', hvalues, -⟩
    · rw [runUntil_of_last limit (by rw [hlast]; exact isItem_last c), hlast, hreceived,
        Limit.take_nil, List.length_nil, Limit.isMet_zero hlimit]
      rfl
    · cases hvs.symm.trans hvalues
  | cons v vs ih =>
    rcases next_last_or_value c with
      ⟨hvalues, -⟩ | ⟨w, ws, c', hvalues, hnext, hrest, hlast, hcount⟩
    · cases hvs.symm.trans hvalues
    · cases hvs.symm.trans hvalues
      rw [runUntil_of_item hnext, Limit.take_cons_pred v vs hlimit, List.length_cons,
        List.length_cons, ← Limit.isMet_pred hlimit]
      by_cases hone : limit = some 1
      · rw [if_pos hone, hone, hcount]
        rfl
      · rw [if_neg hone, ih c' _ (Limit.pred_ne_zero hlimit hone) hrest, hlast, hcount]
        simp only [Nat.add_assoc, Nat.add_comm 1]

end Cursor

end NamedQuery
