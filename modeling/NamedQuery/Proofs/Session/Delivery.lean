import NamedQuery.Proofs.Client.Cursor
import NamedQuery.Proofs.Session.Step

/-!
# Streams among other operations

A stream of values gives what comes of its own reply, in order, however its deliveries are mixed
with other operations of the session, as long as none of these takes the stream away.

* `find?_step_of_spares`: other operations do not touch a stream.
* `stream_delivers_in_order`: what is taken from a stream depends on its reply and on how often it
  is asked, and on nothing else.
* `long_message_not_delivered`: a message that is too long ends a stream, though it could be read.
-/

namespace NamedQuery.Session

variable {s : Session} {id : String} {op : Op} {ops : List Op}

/-! ## Operations that leave a stream alone -/

/-- Whether the stream with this name is still there after an operation: it was not let go of, and
no other was put in its place. -/
def spares (s : Session) (id : String) (op : Op) : Bool :=
  op.releasing? != some id && !(s.opens op && op.opening?.map Prod.fst == some id)

/-- Whether the stream with this name is still there after each of the operations. -/
def keeps (id : String) (s : Session) : List Op → Bool
  | [] => true
  | op :: ops => s.spares id op && keeps id (s.step op).2 ops

/-- How many of the operations take a delivery from the stream with this name. -/
def takings (id : String) (ops : List Op) : Nat := ops.countP fun op => op.taking? == some id

/-- What the operations show that take a delivery from the stream with this name. -/
def taken (s : Session) (id : String) (ops : List Op) : List Outcome :=
  ((ops.zip (s.run ops)).filter fun e => e.1.taking? == some id).map fun e => e.2.1

/-- **A stream stays as it is**, unless an operation is about it. -/
theorem find?_step_of_spares (hs : s.spares id op = true) (ht : op.taking? ≠ some id) :
    (s.step op).2.find? id = s.find? id := by
  rw [spares, Bool.and_eq_true, bne_iff_ne] at hs
  obtain ⟨hreleasing, hopening⟩ := hs
  have heffect := effect_step s op
  generalize s.step op = result at heffect ⊢
  cases heffect with
  | quiet _ hhandles =>
    rw [find?, find?, hhandles]
  | opens service hopens hop =>
    -- a stream was opened, so its name must be another
    rw [hopens, hop, Bool.true_and, Bool.not_eq_true', Option.map_some,
      beq_eq_false_iff_ne] at hopening
    rw [find?_put, if_neg fun hid => hopening (congrArg some hid.symm)]
    rfl
  | takes _ htaking hfound =>
    rw [find?_advance (by rw [hfound]; rfl)]
    exact if_neg fun hid => ht (htaking.trans (congrArg some hid.symm))
  | releases _ hop =>
    rw [find?_release]
    exact if_neg fun hid => hreleasing (hop.trans (congrArg some hid.symm))

theorem step_of_taking_found {h : Handle} (ht : op.taking? = some id) (hs : s.find? id = some h) :
    (s.step op).1 = h.next.1 ∧ (s.step op).2.find? id = some h.next.2 := by
  rw [step_of_taking ht, next_of_find? hs]
  refine ⟨rfl, ?_⟩
  rw [find?_advance (by rw [hs]; rfl), if_pos rfl]

theorem taken_cons : s.taken id (op :: ops) =
    if op.taking? = some id then (s.step op).1 :: (s.step op).2.taken id ops
    else (s.step op).2.taken id ops := by
  rw [taken, run, List.zip_cons_cons, List.filter_cons]
  by_cases ht : op.taking? = some id
  · rw [if_pos (beq_iff_eq.mpr ht), if_pos ht]
    rfl
  · rw [if_neg (by simpa using ht), if_neg ht]
    rfl

theorem takings_cons : takings id (op :: ops) =
    if op.taking? = some id then takings id ops + 1 else takings id ops := by
  rw [takings, List.countP_cons]
  by_cases ht : op.taking? = some id
  · rw [if_pos (beq_iff_eq.mpr ht), if_pos ht]
    rfl
  · rw [if_neg (by simpa using ht), if_neg ht]
    rfl

/-! ## Runs -/

/-- Among any operations that leave it where it is, a stream gives what its cursor delivers, shown
in the way of its kind. -/
theorem taken_eq_deliver_map {wrap : Cursor → Handle} {shown : Delivery → Outcome} {c : Cursor}
    (hwrap : ∀ c, (wrap c).next = (shown c.next.1, wrap c.next.2))
    (hs : s.find? id = some (wrap c)) (hk : s.keeps id ops = true) :
    s.taken id ops = (c.deliver (takings id ops)).1.map shown ∧
    (s.after ops).find? id = some (wrap (c.deliver (takings id ops)).2) := by
  induction ops generalizing s c with
  | nil => exact ⟨rfl, hs⟩
  | cons op ops ih =>
    rw [keeps, Bool.and_eq_true] at hk
    rw [taken_cons, takings_cons]
    by_cases ht : op.taking? = some id
    · obtain ⟨hfirst, hfound⟩ := step_of_taking_found ht hs
      rw [hwrap] at hfirst hfound
      obtain ⟨hrest, hlast⟩ := ih hfound hk.2
      rw [if_pos ht, if_pos ht, hfirst, hrest]
      exact ⟨rfl, hlast⟩
    · rw [if_neg ht, if_neg ht]
      exact ih ((find?_step_of_spares hk.1 ht).trans hs) hk.2

theorem taken_eq_deliver {c : Cursor} (hs : s.find? id = some (.values c))
    (hk : s.keeps id ops = true) :
    s.taken id ops = (c.deliver (takings id ops)).1.map Outcome.ofDelivery ∧
    (s.after ops).find? id = some (.values (c.deliver (takings id ops)).2) :=
  taken_eq_deliver_map (fun _ => rfl) hs hk

/-- A stream that was opened is under its name, and fed from the first reply that was left. -/
theorem find?_of_opens {r : Request} (ho : s.opens (.stream id r) = true) :
    ∃ reply rest, s.service.replies = reply :: rest ∧
      (s.step (.stream id r)).2.find? id = some (.values (.opened r.name reply.incoming)) := by
  have heffect := effect_step s (.stream id r)
  generalize s.step (.stream id r) = result at heffect ⊢
  cases heffect with
  | quiet hopens => cases ho.symm.trans hopens
  | opens service _ hop hreplies =>
    cases hop
    refine ⟨_, _, hreplies, ?_⟩
    rw [find?_put, if_pos rfl]
  | takes hopens => cases ho.symm.trans hopens
  | releases hopens => cases ho.symm.trans hopens

/-- Whether an outcome is a value of a stream. -/
def Outcome.isItem : Outcome → Bool
  | .item _ => true
  | _ => false

theorem countP_ofDelivery (ds : List Delivery) :
    (ds.map Outcome.ofDelivery).countP Outcome.isItem = ds.countP Delivery.isItem := by
  rw [List.countP_map]
  refine List.countP_congr fun d _ => ?_
  cases d <;> exact Iff.rfl

/-- **Streams deliver in order, once, and then nothing.** Whatever else happens as long as a stream
is there, what it is asked for in turn comes from the reply that it was opened with: the values of
the messages in front of the first that is too long or cannot be read, then the one delivery that
ends it, then ends. What ends it is the status behind the messages, or that first message: out of
range if it is too long, whatever is in it, and otherwise an error inside the exchange. Its count is
that of the values that it gave, and it is closed from the terminal delivery on. -/
theorem stream_delivers_in_order (s : Session) (id : String) (r : Request) (ops : List Op)
    (hopens : s.opens (.stream id r) = true)
    (hkeeps : (s.step (.stream id r)).2.keeps id ops = true) :
    let opened := (s.step (.stream id r)).2
    let n := takings id ops
    ∃ reply rest, s.service.replies = reply :: rest ∧
      let messages := reply.incoming.messages
      let final := reply.incoming.final
      let values := readable messages
      let last := ending final messages
      let all := values.map Delivery.item ++ [last]
      opened.taken id ops =
        (all.take n ++ List.replicate (n - all.length) Delivery.finished).map Outcome.ofDelivery ∧
      (∀ m ∈ messages.take values.length, m.length ≤ Message.maxBytes) ∧
      (messages.take values.length).map readElement = values.map .ok ∧
      ((values.length = messages.length ∧ last = if final.isOk then .finished else .failed final) ∨
        ∃ m, messages[values.length]? = some m ∧
          (Message.maxBytes < m.length ∧ last = .failed (Message.tooLong m.length) ∨
            ∃ status, m.length ≤ Message.maxBytes ∧ readElement m = .error status ∧
              status.code = .internal ∧ last = .failed status)) ∧
      ∃ c, (opened.after ops).find? id = some (.values c) ∧
        c.received = (opened.taken id ops).countP Outcome.isItem ∧
        c.isClosed = decide (all.length ≤ n) := by
  intro opened n
  obtain ⟨reply, rest, hreplies, hfound⟩ := find?_of_opens hopens
  obtain ⟨htaken, hlast⟩ := taken_eq_deliver hfound hkeeps
  have hdelivers := Cursor.delivers (c := .opened r.name reply.incoming) n rfl
  refine ⟨reply, rest, hreplies, ?_, fun m => length_le_of_mem_take_readable,
    map_readElement_take _, ?_, _, hlast, ?_, ?_⟩
  · rw [htaken, hdelivers.deliveries]
    rfl
  · rcases ending_cases reply.incoming.final reply.incoming.messages with
      hall | ⟨m, status, hm, hreceive, hending⟩
    · exact .inl hall
    · refine .inr ⟨m, hm, ?_⟩
      rcases receiveElement_error hreceive with ⟨hlong, rfl⟩ | ⟨hsize, hread, hcode⟩
      · exact .inl ⟨hlong, hending⟩
      · exact .inr ⟨status, hsize, hread, hcode, hending⟩
  · rw [htaken, countP_ofDelivery, Cursor.received_deliver]
    exact Nat.zero_add _
  · exact hdelivers.closed

/-- A stream that fails behind its second value, among calls, another stream and a copy. -/
theorem stream_delivers_in_order_mixed :
    let s := start [.elements [.node (.ofValue (.uint64 7)), .node (.ofValue (.list [.nil])),
      .status ⟨.notFound, "gone"⟩, .node (.ofValue .nil)], .node (.ofValue (.bool true)),
      .elements [.node (.ofValue .nil)]]
    let ops : List Op := [.next "a", .call (.named "q"), .stream "b" (.named "q"), .next "b",
      .next "a", .copyClient, .setReady (some "closed"), .next "a", .cancel "b", .next "a"]
    s.opens (.stream "a" (.named "q")) = true ∧
    (s.step (.stream "a" (.named "q"))).2.keeps "a" ops = true ∧
    (s.step (.stream "a" (.named "q"))).2.taken "a" ops =
      [.item (.uint64 7), .item (.list [.nil]), .transportError (.status ⟨.notFound, "gone"⟩),
        .finished] := by
  intro s ops
  have hopens : s.opens (.stream "a" (.named "q")) = true := by decide +kernel
  have hkeeps : (s.step (.stream "a" (.named "q"))).2.keeps "a" ops = true := by decide +kernel
  refine ⟨hopens, hkeeps, ?_⟩
  obtain ⟨reply, rest, hreplies, htaken, -⟩ :=
    stream_delivers_in_order s "a" (.named "q") ops hopens hkeeps
  cases hreplies
  rw [htaken]
  have hreadable : readable [(Wire.Node.ofValue (.uint64 7)).encode,
      (Wire.Node.ofValue (.list [.nil])).encode] = [.uint64 7, .list [.nil]] := by decide +kernel
  have hending : ending ⟨.notFound, "gone"⟩ [(Wire.Node.ofValue (.uint64 7)).encode,
      (Wire.Node.ofValue (.list [.nil])).encode] = .failed ⟨.notFound, "gone"⟩ := by decide +kernel
  simp only [Reply.incoming, Element.messages, Element.final, hreadable, hending]
  rfl

/-- The value of a message that is too long is not delivered, though the message could be read. -/
theorem long_message_not_delivered :
    let s := start [.raw [Value.bulky.encode] .success]
    let opened := (s.step (.stream "a" (.named "q"))).2
    s.opens (.stream "a" (.named "q")) = true ∧ opened.keeps "a" [.next "a"] = true ∧
    readElement Value.bulky.encode = .ok .bulky ∧
    opened.taken "a" [.next "a"] ≠ [.item .bulky] ∧
    ∃ status : Status, status.code = .outOfRange ∧
      opened.taken "a" [.next "a"] = [.transportError (.status status)] := by
  intro s opened
  have hopens : s.opens (.stream "a" (.named "q")) = true := by decide +kernel
  have hkeeps : opened.keeps "a" [.next "a"] = true := by decide +kernel
  obtain ⟨hread, hreceive⟩ := receiveElement_bulky
  have htaken : opened.taken "a" [.next "a"] =
      [.transportError (.status (Message.tooLong Value.bulky.encode.length))] := by
    obtain ⟨reply, rest, hreplies, hfound⟩ := find?_of_opens hopens
    cases hreplies
    rw [(taken_eq_deliver hfound hkeeps).1]
    show [Outcome.ofDelivery (Cursor.next _).1] = _
    rw [Cursor.next_of_error rfl hreceive]
    rfl
  refine ⟨hopens, hkeeps, hread, ?_, _, rfl, htaken⟩
  rw [htaken]
  nofun

end NamedQuery.Session
