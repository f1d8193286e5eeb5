import NamedQuery.Proofs.Client.Limit
import NamedQuery.Proofs.Session.Agreement
import NamedQuery.Proofs.Session.Release

/-!
# Runs over a stream

A stream can be asked for its values one at a time, or it can be run over at once, until the caller
has had enough. Both give the same values in the same order. The run stops behind the value at which
the caller has had enough, so what would come next is of no account.

* `Session.asked`: what a stream shows when it is asked again and again.
* `RunAgrees`: what a run comes to, in these terms.
* `forEach_agrees_with_next`: this holds of every stream of values, at any time of its life.
-/

namespace NamedQuery.Session

variable {s : Session} {id : String} {c : Cursor} {limit : Option Nat}

/-- What a stream shows when it is asked so many times in a row. -/
def asked (s : Session) (id : String) (n : Nat) : List Outcome :=
  (s.run (List.replicate n (.next id))).map Prod.fst

/-- What a run over a stream comes to: the values that it has seen, its result, and the session
behind it. -/
structure RunAgrees (s : Session) (id : String) (c : Cursor) (limit : Option Nat)
    (seen : List Value) (result : Except Status Nat) : Prop where
  outcome : (s.step (.forEach id limit)).1 = .run ⟨seen, result⟩
  /-- The values are those that the stream shows when it is asked for as many. -/
  values : s.asked id seen.length = seen.map .item
  /-- The caller has had enough behind the last of the values, and all is well. Or that is not yet
  so, and asked once more the stream shows its end, and all is well, or an error, which is the
  result. -/
  ending : (limit = some seen.length ∧ result = .ok (c.received + seen.length)) ∨
    (∀ n, limit = some n → seen.length < n) ∧
      ((s.asked id (seen.length + 1) = seen.map .item ++ [.finished] ∧
          result = .ok (c.received + seen.length)) ∨
        ∃ status, result = .error status ∧ s.asked id (seen.length + 1) =
          seen.map .item ++ [.transportError (.status status)])
  closed : c.isClosed = true → seen = [] ∧ result = .ok c.received
  /-- The stream is let go of, unless it was before. -/
  gone : (s.step (.forEach id limit)).2.find? id = none
  released : (s.step (.forEach id limit)).2.released = s.released + c.isHeld.toNat
  others : ∀ other, other ≠ id →
    (s.step (.forEach id limit)).2.find? other = s.find? other

theorem asked_of_le {n : Nat} (hs : s.find? id = some (.values c)) (hn : n ≤ c.values.length) :
    s.asked id n = (c.values.take n).map .item := by
  rw [asked, (outcomes_next n hs).1, Cursor.deliver_of_le hn, List.map_map]
  rfl

theorem asked_succ_length (hs : s.find? id = some (.values c)) :
    s.asked id (c.values.length + 1) = c.values.map .item ++ [.ofDelivery c.last] := by
  rw [asked, (outcomes_next _ hs).1, Cursor.deliver_succ_length, List.map_append, List.map_map]
  rfl

theorem step_forEach (limit : Option Nat) (hs : s.find? id = some (.values c)) :
    s.step (.forEach id limit) = (.run (c.runUntil limit), s.release id) := by
  show s.forEach id limit = _
  rw [forEach, hs]

theorem released_release {h : Handle} (hs : s.find? id = some h) :
    (s.release id).released = s.released + h.cursor.isHeld.toNat := by
  rw [release, hs, ← Cursor.hold_eq_isHeld]

/-- **A run over a stream is asking it again and again.** This holds whatever the stream has given
before, also when it is closed already, and wherever the caller has had enough. -/
theorem forEach_agrees_with_next (s : Session) (id : String) (c : Cursor) (limit : Option Nat)
    (hs : s.find? id = some (.values c)) (hlimit : limit ≠ some 0) :
    ∃ seen result, s.RunAgrees id c limit seen result := by
  have hstep := step_forEach limit hs
  have hrun := c.runUntil_eq limit hlimit
  have hfirst := Limit.take_isPrefix limit c.values
  refine ⟨_, _, by rw [hstep, hrun], ?_, ?_, ?_, ?_, ?_, ?_⟩
  · rw [asked_of_le hs hfirst.length_le, ← List.prefix_iff_eq_take.mp hfirst]
  · cases hmet : Limit.isMet limit c.values.length with
    | true =>
      -- the limit is met by values alone, so nothing behind them matters
      obtain ⟨n, rfl, hn⟩ := Limit.exists_of_isMet hmet
      have hlength : (Limit.take (some n) c.values).length = n := List.length_take_of_le hn
      exact .inl ⟨by rw [hlength], rfl⟩
    | false =>
      -- all values are seen, and the run ends with what is behind them
      rw [Limit.take_of_not_met hmet, asked_succ_length hs]
      refine .inr ⟨fun n hn => Limit.lt_of_not_met (hn ▸ hmet), ?_⟩
      cases hlast : c.last with
      | item v =>
        have hitem := c.isItem_last
        rw [hlast] at hitem
        cases hitem
      | failed status => exact .inr ⟨status, rfl, rfl⟩
      | finished => exact .inl ⟨rfl, rfl⟩
  · intro hclosed
    have hincoming : c.incoming = none := Option.isNone_iff_eq_none.mp hclosed
    rw [Cursor.values_of_closed hincoming, Cursor.last_of_closed hincoming, Limit.take_nil,
      List.length_nil, Limit.isMet_zero hlimit]
    exact ⟨rfl, rfl⟩
  · rw [hstep, find?_release, if_pos rfl]
  · rw [hstep]
    exact released_release hs
  · intro other hother
    rw [hstep, find?_release, if_neg hother]

/-- The caller has had enough of a stream that gave one value before, right in front of its error.
Had the caller not, the error would be the result. -/
theorem forEach_agrees_with_next_enough :
    let s := (start [.elements [.node (.ofValue .nil), .node (.ofValue (.uint64 2)),
      .node (.ofValue (.bool true)), .status ⟨.internal, "lost"⟩]]).after
        [.stream "a" (.named "q"), .next "a"]
    let c : Cursor := ⟨"q", some ⟨[Value.encode (.uint64 2), Value.encode (.bool true)],
      ⟨.internal, "lost"⟩, true⟩, 1⟩
    s.find? "a" = some (.values c) ∧
    ((some 2 : Option Nat) ≠ some 0 ∧ ∃ seen result, s.RunAgrees "a" c (some 2) seen result) ∧
    ((none : Option Nat) ≠ some 0 ∧ ∃ seen result, s.RunAgrees "a" c none seen result) := by
  intro s c
  have hfound : s.find? "a" = some (.values c) := by decide +kernel
  exact ⟨hfound, ⟨by decide, forEach_agrees_with_next s "a" c (some 2) hfound (by decide)⟩,
    ⟨by decide, forEach_agrees_with_next s "a" c none hfound (by decide)⟩⟩

end NamedQuery.Session
