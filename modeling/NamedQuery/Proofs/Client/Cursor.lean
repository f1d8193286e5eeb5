import NamedQuery.Client.Cursor
import NamedQuery.Proofs.Message

/-!
# Deliveries of a cursor

A cursor gives the values of a response in order, each once, then whatever ends the response, and
then nothing any more. What ends it may be the status behind the messages, or the first message that
is too long or cannot be read.

* `receiveElement_error`: the two ways for a message to be an error.
* `Incoming.deliveries`: all that comes of a response, the one terminal delivery last.
* `Cursor.delivers`: so many deliveries of a cursor are as many of these, and then ends.
-/

namespace NamedQuery

/-! ## What comes of a response -/

/-- The values of the messages in front of the first that is too long or cannot be read. -/
def readable : List (List UInt8) → List Value
  | [] => []
  | m :: ms =>
    match receiveElement m with
    | .error _ => []
    | .ok v => v :: readable ms

/-- What follows the readable messages: the error of the first that is too long or cannot be read,
or what the status behind them says. -/
def ending (final : Status) : List (List UInt8) → Delivery
  | [] => if final.isOk then .finished else .failed final
  | m :: ms =>
    match receiveElement m with
    | .error s => .failed s
    | .ok _ => ending final ms

/-- The error of a message that cannot be read tells of the client, not of the service. -/
theorem readElement_error {m : List UInt8} {s : Status} (h : readElement m = .error s) :
    s.code = .internal := by
  unfold readElement at h
  split at h
  · cases h
    rfl
  · split at h
    · cases h
      rfl
    · cases h

/-- Messages that come in are not too long, and can be read. -/
theorem receiveElement_eq_ok_iff {m : List UInt8} {v : Value} :
    receiveElement m = .ok v ↔ m.length ≤ Message.maxBytes ∧ readElement m = .ok v :=
  Message.receive_eq_ok_iff

/-- Other messages are too long, or they cannot be read. -/
theorem receiveElement_error {m : List UInt8} {s : Status} (h : receiveElement m = .error s) :
    Message.maxBytes < m.length ∧ s = Message.tooLong m.length ∨
    m.length ≤ Message.maxBytes ∧ readElement m = .error s ∧ s.code = .internal := by
  rcases Message.receive_eq_error_iff.mp h with hlong | ⟨hsize, hread⟩
  · exact .inl hlong
  · exact .inr ⟨hsize, hread, readElement_error hread⟩

section Readable

variable {m : List UInt8} {ms : List (List UInt8)} {status : Status} {v : Value}

theorem readable_of_error (h : receiveElement m = .error status) : readable (m :: ms) = [] := by
  rw [readable, h]

theorem readable_of_ok (h : receiveElement m = .ok v) : readable (m :: ms) = v :: readable ms := by
  rw [readable, h]

theorem ending_of_error (final : Status) (h : receiveElement m = .error status) :
    ending final (m :: ms) = .failed status := by
  rw [ending, h]

theorem ending_of_ok (final : Status) (h : receiveElement m = .ok v) :
    ending final (m :: ms) = ending final ms := by
  rw [ending, h]

end Readable

/-- The readable messages are those in front of the others. -/
theorem map_receiveElement_take (ms : List (List UInt8)) :
    (ms.take (readable ms).length).map receiveElement = (readable ms).map .ok := by
  induction ms with
  | nil => rfl
  | cons m ms ih =>
    cases hm : receiveElement m with
    | error status =>
      rw [readable_of_error hm]
      rfl
    | ok v =>
      rw [readable_of_ok hm]
      show receiveElement m :: (ms.take (readable ms).length).map receiveElement = _
      rw [hm, ih]
      rfl

/-- None of them is too long. -/
theorem length_le_of_mem_take_readable {m : List UInt8} {ms : List (List UInt8)}
    (h : m ∈ ms.take (readable ms).length) : m.length ≤ Message.maxBytes := by
  have hmem : receiveElement m ∈ (readable ms).map .ok := by
    rw [← map_receiveElement_take]
    exact List.mem_map_of_mem h
  obtain ⟨v, -, hv⟩ := List.mem_map.mp hmem
  exact (receiveElement_eq_ok_iff.mp hv.symm).1

theorem map_readElement_take (ms : List (List UInt8)) :
    (ms.take (readable ms).length).map readElement = (readable ms).map .ok := by
  rw [← map_receiveElement_take]
  refine List.map_congr_left fun m hm => ?_
  exact (Message.receive_of_le (length_le_of_mem_take_readable hm)).symm

/-- What follows them is the status behind all messages, or the error of the first of the others. -/
theorem ending_cases (final : Status) (ms : List (List UInt8)) :
    ((readable ms).length = ms.length ∧
      ending final ms = if final.isOk then .finished else .failed final) ∨
    ∃ m status, ms[(readable ms).length]? = some m ∧ receiveElement m = .error status ∧
      ending final ms = .failed status := by
  induction ms with
  | nil => exact .inl ⟨rfl, rfl⟩
  | cons m ms ih =>
    cases hm : receiveElement m with
    | error status =>
      refine .inr ⟨m, status, ?_, hm, ending_of_error final hm⟩
      rw [readable_of_error hm]
      rfl
    | ok v =>
      rw [readable_of_ok hm, ending_of_ok final hm, List.length_cons, List.length_cons,
        List.getElem?_cons_succ]
      rcases ih with ⟨hlength, hending⟩ | hfirst
      · exact .inl ⟨congrArg (· + 1) hlength, hending⟩
      · exact .inr hfirst

/-- Whether a delivery is a value. -/
def Delivery.isItem : Delivery → Bool
  | .item _ => true
  | _ => false

/-- All that comes of a response, the terminal delivery last. -/
def Incoming.deliveries (i : Incoming) : List Delivery :=
  (readable i.messages).map .item ++ [ending i.final i.messages]

namespace Cursor

variable {c : Cursor} {final : Status} {held : Bool} {m : List UInt8} {ms : List (List UInt8)}

/-! ## One delivery -/

theorem next_of_closed (h : c.incoming = none) : c.next = (.finished, c) := by
  rw [next, h]

theorem next_of_empty (h : c.incoming = some ⟨[], final, held⟩) :
    c.next = (if final.isOk then .finished else .failed final, c.close) := by
  rw [next, h]

theorem next_of_error {s : Status} (h : c.incoming = some ⟨m :: ms, final, held⟩)
    (hm : receiveElement m = .error s) : c.next = (.failed s, c.close) := by
  rw [next, h]
  simp only [hm]

theorem next_of_value {v : Value} (h : c.incoming = some ⟨m :: ms, final, held⟩)
    (hm : receiveElement m = .ok v) :
    c.next = (.item v,
      { c with incoming := some ⟨ms, final, held⟩, received := c.received + 1 }) := by
  rw [next, h]
  simp only [hm]

/-- A delivery closes the cursor, or it is a value, and then it is counted. -/
theorem next_closes_or_gives (c : Cursor) :
    (c.next.1.isItem = false ∧ c.next.2.incoming = none ∧ c.next.2.received = c.received) ∨
    ∃ v i i', c.incoming = some i ∧
      c.next = (.item v, { c with incoming := some i', received := c.received + 1 }) ∧
      i'.held = i.held := by
  cases hi : c.incoming with
  | none =>
    rw [next_of_closed hi]
    exact .inl ⟨rfl, hi, rfl⟩
  | some i =>
    obtain ⟨ms, final, held⟩ := i
    cases ms with
    | nil =>
      rw [next_of_empty hi]
      exact .inl ⟨by cases final.isOk <;> rfl, rfl, rfl⟩
    | cons m ms =>
      cases hm : receiveElement m with
      | error status =>
        rw [next_of_error hi hm]
        exact .inl ⟨rfl, rfl, rfl⟩
      | ok v => exact .inr ⟨v, _, _, rfl, next_of_value hi hm, rfl⟩

theorem received_next (c : Cursor) :
    c.next.2.received = c.received + c.next.1.isItem.toNat := by
  rcases next_closes_or_gives c with ⟨hitem, -, hreceived⟩ | ⟨v, i, i', -, hnext, -⟩
  · rw [hitem, hreceived]
    rfl
  · rw [hnext]
    rfl

theorem isClosed_next (c : Cursor) : c.next.2.isClosed = !c.next.1.isItem := by
  rcases next_closes_or_gives c with ⟨hitem, hclosed, -⟩ | ⟨v, i, i', -, hnext, -⟩
  · rw [hitem, isClosed, hclosed]
    rfl
  · rw [hnext]
    rfl

/-- The name of a cursor is of no account. -/
theorem next_named (c : Cursor) (name : String) :
    ({ c with name } : Cursor).next = (c.next.1, { c.next.2 with name }) := by
  obtain ⟨_, incoming, received⟩ := c
  match incoming with
  | none => rfl
  | some ⟨[], final, held⟩ => rfl
  | some ⟨m :: ms, final, held⟩ =>
    cases hm : receiveElement m with
    | error status =>
      rw [next_of_error rfl hm, next_of_error rfl hm]
      rfl
    | ok v => rw [next_of_value rfl hm, next_of_value rfl hm]

/-! ## Deliveries in turn -/

/-- The next `n` deliveries, and the cursor behind them. -/
def deliver : (n : Nat) → Cursor → List Delivery × Cursor
  | 0, c => ([], c)
  | n + 1, c => (c.next.1 :: (deliver n c.next.2).1, (deliver n c.next.2).2)

theorem received_deliver (c : Cursor) (n : Nat) :
    (c.deliver n).2.received = c.received + (c.deliver n).1.countP Delivery.isItem := by
  induction n generalizing c with
  | zero => rfl
  | succ n ih =>
    rw [deliver, List.countP_cons]
    dsimp only
    rw [ih, received_next]
    cases c.next.1.isItem with
    | false => rfl
    | true =>
      show c.received + 1 + _ = c.received + (_ + 1)
      omega

theorem isClosed_deliver (c : Cursor) (n : Nat) :
    (c.deliver n).2.isClosed = (c.isClosed || (c.deliver n).1.any fun d => !d.isItem) := by
  induction n generalizing c with
  | zero => exact (Bool.or_false _).symm
  | succ n ih =>
    rw [deliver, List.any_cons]
    dsimp only
    rw [ih, isClosed_next]
    cases hclosed : c.isClosed with
    | false => rfl
    | true =>
      -- a cursor that is closed gives no values
      rw [next_of_closed (Option.isNone_iff_eq_none.mp hclosed)]
      rfl

theorem deliver_named (c : Cursor) (name : String) (n : Nat) :
    ({ c with name } : Cursor).deliver n = ((c.deliver n).1, { (c.deliver n).2 with name }) := by
  induction n generalizing c with
  | zero => rfl
  | succ n ih => rw [deliver, deliver, next_named, ih]

theorem deliver_opened (name name' : String) (i : Incoming) (n : Nat) :
    (opened name' i).deliver n =
      (((opened name i).deliver n).1, { ((opened name i).deliver n).2 with name := name' }) :=
  deliver_named (opened name i) name' n

theorem deliver_of_closed (n : Nat) (h : c.incoming = none) :
    c.deliver n = (List.replicate n .finished, c) := by
  induction n with
  | zero => rfl
  | succ n ih =>
    rw [deliver, next_of_closed h, ih]
    rfl

/-- A delivery that closes the cursor is the last but for the ends. -/
theorem deliver_of_close (n : Nat) {d : Delivery} (h : c.next = (d, c.close)) :
    c.deliver (n + 1) = (d :: List.replicate n .finished, c.close) := by
  rw [deliver, h, deliver_of_closed n rfl]

/-- What `n` deliveries of a response come to. -/
structure Delivers (c : Cursor) (n : Nat) (i : Incoming) : Prop where
  deliveries : (c.deliver n).1 =
    i.deliveries.take n ++ List.replicate (n - i.deliveries.length) .finished
  closed : (c.deliver n).2.isClosed = decide (i.deliveries.length ≤ n)

/-- A response of which nothing is readable is over with its first delivery. -/
theorem delivers_of_close {i : Incoming} (n : Nat) (hr : readable i.messages = [])
    (h : c.next = (ending i.final i.messages, c.close)) : c.Delivers (n + 1) i := by
  have hd : i.deliveries = [ending i.final i.messages] := by
    rw [Incoming.deliveries, hr]
    rfl
  constructor
  · rw [deliver_of_close n h, hd, List.take_succ_cons, List.take_nil, List.length_singleton,
      Nat.add_sub_cancel]
    rfl
  · rw [deliver_of_close n h, hd, List.length_singleton]
    exact (decide_eq_true (Nat.le_add_left 1 n)).symm

/-- **In order, once, and then nothing.** -/
theorem delivers {i : Incoming} (n : Nat) (h : c.incoming = some i) : c.Delivers n i := by
  obtain ⟨ms, final, held⟩ := i
  -- the messages that are left shrink with each delivery, until one closes the cursor
  induction n generalizing c ms with
  | zero =>
    constructor
    · rw [Nat.zero_sub]
      rfl
    · rw [deliver, isClosed, h, Incoming.deliveries, List.length_append]
      rfl
  | succ n ih =>
    cases ms with
    | nil => exact delivers_of_close n rfl (next_of_empty h)
    | cons m ms =>
      cases hm : receiveElement m with
      | error s =>
        refine delivers_of_close n (readable_of_error hm) ?_
        rw [ending_of_error final hm]
        exact next_of_error h hm
      | ok v =>
        have hnext := next_of_value h hm
        have hd : Incoming.deliveries ⟨m :: ms, final, held⟩ =
            .item v :: Incoming.deliveries ⟨ms, final, held⟩ := by
          rw [Incoming.deliveries, readable_of_ok hm, ending_of_ok final hm]
          rfl
        have hrest := @ih c.next.2 ms (by rw [hnext])
        constructor
        · rw [deliver, hrest.deliveries, hd, hnext, List.take_succ_cons, List.length_cons,
            Nat.add_sub_add_right, List.cons_append]
        · show (deliver n c.next.2).2.isClosed = _
          rw [hrest.closed, hd, List.length_cons]
          simp only [Nat.add_le_add_iff_right]

end Cursor

end NamedQuery
