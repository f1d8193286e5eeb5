import NamedQuery.Session

/-!
# Streams of a session

How the streams of a session are found under their names, and what becomes of them when one is let
go of, put in place of another, or taken a delivery from: the stream in question is the one that is
meant, and all others are as they were.
-/

namespace NamedQuery

/-! ## One stream -/

/-- What a delivery of a stream of values shows. -/
def Session.Outcome.ofDelivery : Delivery → Outcome
  | .item v => .item v
  | .failed s => .transportError (.status s)
  | .finished => .finished

/-- What a delivery of a stream of deposits shows. -/
def Session.Outcome.ofDeposit : DepositDelivery → Outcome
  | .item d => .deposit d
  | .failed e => .queryError e
  | .finished => .finished

/-- What the next delivery of an open stream shows, and the stream behind it. -/
def Handle.next : Handle → Session.Outcome × Handle
  | values c => (.ofDelivery c.next.1, values c.next.2)
  | deposits c => (.ofDeposit c.nextDeposit.1, deposits c.nextDeposit.2)

theorem Handle.cursor_next (h : Handle) : h.next.2.cursor = h.cursor.next.2 := by
  cases h <;> rfl

namespace Session

variable {s : Session} {id other : String} {h : Handle}

theorem next_of_find? (hs : s.find? id = some h) :
    s.next id = (h.next.1, s.advance id h.cursor h.next.2) := by
  rw [next, hs]
  cases h with
  | values c =>
    show (_, s.advance id c (.values c.next.2)) = _
    cases c.next.1 <;> rfl
  | deposits c =>
    show (_, s.advance id c (.deposits c.nextDeposit.2)) = _
    cases c.nextDeposit.1 <;> rfl

theorem next_of_missing (hs : s.find? id = none) : s.next id = (.noStream, s) := by
  rw [next, hs]

/-! ## What does not change -/

@[simp] theorem release_service : (s.release id).service = s.service := by
  rw [release]
  split <;> rfl

@[simp] theorem put_service : (s.put id h).service = s.service := release_service

/-! ## Streams under their names -/

/-- The stream under a name in a list of streams. -/
def lookup (hs : List (String × Handle)) (id : String) : Option Handle :=
  (hs.find? fun h => h.1 == id).map Prod.snd

theorem find?_eq_lookup : s.find? id = lookup s.handles id := rfl

theorem lookup_cons (entry : String × Handle) (hs : List (String × Handle)) :
    lookup (entry :: hs) id = if entry.1 = id then some entry.2 else lookup hs id := by
  rw [lookup, List.find?_cons]
  by_cases hid : entry.1 = id
  · rw [if_pos hid, hid, beq_self_eq_true]
    rfl
  · rw [if_neg hid, beq_eq_false_iff_ne.mpr hid]
    rfl

theorem lookup_filter (hs : List (String × Handle)) :
    lookup (hs.filter fun h => h.1 != id) other = if other = id then none else lookup hs other := by
  induction hs with
  | nil =>
    split <;> rfl
  | cons entry hs ih =>
    rw [List.filter_cons, lookup_cons]
    by_cases he : entry.1 = id
    · rw [if_neg (by simp [he]), ih, he]
      by_cases ho : other = id
      · rw [if_pos ho, if_pos ho]
      · rw [if_neg ho, if_neg ho, if_neg (Ne.symm ho)]
    · rw [if_pos (by simp [he]), lookup_cons, ih]
      by_cases ho : other = id
      · rw [if_pos ho, if_pos ho, if_neg (by rw [ho]; exact he)]
      · rw [if_neg ho, if_neg ho]

theorem lookup_append_single (hs : List (String × Handle)) (entry : String × Handle) :
    lookup (hs ++ [entry]) id =
      (lookup hs id).or (if entry.1 = id then some entry.2 else none) := by
  induction hs with
  | nil =>
    rw [List.nil_append, lookup_cons]
    rfl
  | cons first hs ih =>
    rw [List.cons_append, lookup_cons, lookup_cons, ih]
    split <;> rfl

theorem lookup_replace (hs : List (String × Handle)) (h : Handle) :
    lookup (hs.map fun e => if e.1 == id then (id, h) else e) other =
      if other = id then (lookup hs id).map fun _ => h else lookup hs other := by
  induction hs with
  | nil => split <;> rfl
  | cons entry hs ih =>
    rw [List.map_cons, lookup_cons, lookup_cons, lookup_cons, ih]
    by_cases he : entry.1 = id
    · simp only [he, beq_self_eq_true, if_true]
      by_cases ho : other = id
      · rw [if_pos ho.symm, if_pos ho]
        rfl
      · rw [if_neg (Ne.symm ho), if_neg ho, if_neg (Ne.symm ho), if_neg ho]
    · simp only [beq_eq_false_iff_ne.mpr he, Bool.false_eq_true, if_false]
      by_cases ho : other = id
      · rw [if_pos ho, if_pos ho, if_neg (by rw [ho]; exact he), if_neg he]
      · rw [if_neg ho, if_neg ho]

theorem find?_release :
    (s.release id).find? other = if other = id then none else s.find? other := by
  rw [release]
  split
  case h_1 hs =>
    split
    · rename_i ho
      rw [ho, hs]
    · rfl
  case h_2 => exact lookup_filter s.handles

theorem find?_put : (s.put id h).find? other = if other = id then some h else s.find? other := by
  show lookup ((s.release id).handles ++ [(id, h)]) other = _
  rw [lookup_append_single, ← find?_eq_lookup, find?_release]
  by_cases ho : other = id
  · rw [if_pos ho, if_pos ho, if_pos ho.symm]
    rfl
  · rw [if_neg ho, if_neg ho, if_neg (Ne.symm ho), Option.or_none]

theorem find?_advance {before : Cursor} (hs : (s.find? id).isSome) :
    (s.advance id before h).find? other = if other = id then some h else s.find? other := by
  show lookup (s.handles.map _) other = _
  rw [lookup_replace, ← find?_eq_lookup, ← find?_eq_lookup]
  split
  · obtain ⟨h', hh⟩ := Option.isSome_iff_exists.mp hs
    rw [hh]
    rfl
  · rfl

end Session

end NamedQuery
