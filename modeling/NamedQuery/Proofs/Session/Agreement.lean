import NamedQuery.Proofs.Client.Answer
import NamedQuery.Proofs.Session.Delivery

/-!
# Calls and streams agree

One response can be taken in by a call, which gives a single value, or by a stream, which gives one
delivery after the other. Both tell the same of it: a call fails with the error that the stream
comes to, wherever that is, and otherwise it gives the first of the values.

* `readAllElements_eq`: all values at once are the values of the deliveries, unless these end with
  an error.
* `outcomes_next`: what a session shows when a stream is asked again and again.
* `call_agrees_with_drain`: the two ways to take in a response.
* `final_status_not_met`: a message that is too long hides the status behind it.
-/

namespace NamedQuery

/-! ## Responses -/

theorem readable_length_le (ms : List (List UInt8)) : (readable ms).length ≤ ms.length := by
  rcases ending_cases .success ms with ⟨h, -⟩ | ⟨m, status, h, -⟩
  · exact Nat.le_of_eq h
  · obtain ⟨hlt, -⟩ := List.getElem?_eq_some_iff.mp h
    exact Nat.le_of_lt hlt

theorem ending_of_readable (final : Status) {ms : List (List UInt8)}
    (h : ∀ m ∈ ms, ∃ v, receiveElement m = .ok v) :
    ending final ms = if final.isOk then .finished else .failed final := by
  rcases ending_cases final ms with ⟨-, hending⟩ | ⟨m, status, hm, hreceive, -⟩
  · exact hending
  · obtain ⟨v, hv⟩ := h m (List.mem_of_getElem? hm)
    cases hreceive.symm.trans hv

theorem ending_ne_item (final : Status) (ms : List (List UInt8)) (v : Value) :
    ending final ms ≠ .item v := by
  rcases ending_cases final ms with ⟨-, h⟩ | ⟨m, status, -, -, h⟩
  · rw [h]
    split <;> exact Delivery.noConfusion
  · rw [h]
    exact Delivery.noConfusion

/-- The error that ends a response, if one does. -/
def Delivery.failure? : Delivery → Option Status
  | failed s => some s
  | _ => none

theorem Client.readAllElements_eq (final : Status) (ms : List (List UInt8)) :
    readAllElements final ms =
      match (ending final ms).failure? with
      | some status => .error status
      | none => .ok (readable ms) := by
  induction ms with
  | nil =>
    rw [readAllElements, ending]
    split <;> rfl
  | cons m ms ih =>
    rw [readAllElements]
    cases hm : receiveElement m with
    | error status =>
      rw [ending_of_error final hm]
      rfl
    | ok v =>
      rw [ending_of_ok final hm, readable_of_ok hm, ih]
      cases (ending final ms).failure? <;> rfl

namespace Session

variable {s : Session} {id : String} {op : Op} {method : Method} {r : Request} {reply : Reply}

/-- Whether an operation uses up this reply: it is the first that is left, and those behind it are
left after the operation. -/
def AnsweredBy (s : Session) (op : Op) (reply : Reply) : Prop :=
  s.service.replies = reply :: (s.step op).2.service.replies

theorem exchange_of_answeredBy (ha : op.asks? = some (method, r)) (h : s.AnsweredBy op reply) :
    (s.client.exchange s.service method r).1 =
      (reply.response method).accept.mapError fun status => .transport (.status status) := by
  rw [AnsweredBy, step_service, ha] at h
  exact Client.exchange_of_used h

/-- A session that is ready uses up a reply for each request in which there is nothing to refuse. -/
theorem answeredBy_of_plain {rest : List Reply} (ha : op.asks? = some (method, r))
    (hready : s.client.unready = none) (hr : r.Plain)
    (hsize : r.envelope.encode.length ≤ Message.maxBytes)
    (hreplies : s.service.replies = reply :: rest) : s.AnsweredBy op reply := by
  rw [AnsweredBy, step_service, ha]
  dsimp only
  rw [Client.exchange_of_plain hready hr hsize hreplies, hreplies]
  rfl

theorem plain_named {name : String} (hname : Text.isBlankText name.toList = false) :
    (Request.named name).Plain :=
  Request.plain_of_flat hname fun _ hv => absurd hv List.not_mem_nil

theorem accept_raw (method : Method) (messages : List (List UInt8)) (final : Status) :
    ((Reply.raw messages final).response method).accept = .ok ⟨messages, final, true⟩ := by
  rw [Reply.response, Response.accept, Reply.ofFrames_messages]

/-! ## Drained streams -/

/-- A stream of values that is asked again and again shows the deliveries of its cursor. -/
theorem outcomes_next {c : Cursor} (n : Nat) (hs : s.find? id = some (.values c)) :
    (s.run (List.replicate n (.next id))).map Prod.fst = (c.deliver n).1.map Outcome.ofDelivery ∧
    (s.after (List.replicate n (.next id))).find? id = some (.values (c.deliver n).2) := by
  induction n generalizing s c with
  | zero => exact ⟨rfl, hs⟩
  | succ n ih =>
    have htaking : (Op.next id).taking? = some id := rfl
    obtain ⟨hfirst, hfound⟩ := step_of_taking_found htaking hs
    obtain ⟨hrest, hlast⟩ := ih hfound
    refine ⟨?_, hlast⟩
    rw [List.replicate_succ, run, List.map_cons, hrest, hfirst]
    rfl

/-- The error that an outcome tells of a stream, if it tells one. -/
def Outcome.failure? : Outcome → Option Status
  | .transportError (.status status) => some status
  | _ => none

/-- The value that an outcome gives, if it is one of a stream. -/
def Outcome.item? : Outcome → Option Value
  | .item v => some v
  | _ => none

/-- What a call shows that goes with what a stream has shown until its end. -/
def Outcome.ofDrain (shown : List Outcome) : Outcome :=
  match shown.findSome? failure? with
  | some status => .callError (.transport (.status status))
  | none =>
    match shown.findSome? item? with
    | some v => .value v
    | none => .callError (.transport (.status (.internal "Missing response message.")))

/-- What is found first in a drained stream is one of its values, or it is how the stream ended. -/
theorem findSome?_drain {β : Type} {f : Outcome → Option β} (hf : f .finished = none)
    (i : Incoming) (k : Nat) :
    ((i.deliveries ++ List.replicate k Delivery.finished).map Outcome.ofDelivery).findSome? f =
      ((readable i.messages).findSome? fun v => f (.item v)).or
        (f (.ofDelivery (ending i.final i.messages))) := by
  have hends : (List.replicate k Delivery.finished).findSome? (f ∘ Outcome.ofDelivery) = none := by
    rw [List.findSome?_eq_none_iff]
    intro d hd
    rw [List.eq_of_mem_replicate hd]
    exact hf
  rw [List.findSome?_map, List.findSome?_append, hends, Option.or_none, Incoming.deliveries,
    List.findSome?_append, List.findSome?_map, List.findSome?_singleton]
  rfl

/-- A drained stream has shown what a call makes of the same response. -/
theorem ofDrain_deliveries (i : Incoming) (k : Nat) :
    Outcome.ofDrain ((i.deliveries ++ List.replicate k Delivery.finished).map Outcome.ofDelivery) =
      .ofExcept (fun status => .callError (.transport (.status status))) .value
        (Client.single i) := by
  have hnone : (readable i.messages).findSome? (fun v => Outcome.failure? (.item v)) = none :=
    List.findSome?_eq_none_iff.mpr fun _ _ => rfl
  have hfirst : (readable i.messages).findSome? (fun v => Outcome.item? (.item v)) =
      (readable i.messages).head? := by
    cases readable i.messages <;> rfl
  rw [Outcome.ofDrain, findSome?_drain rfl, findSome?_drain rfl, hnone, hfirst, Client.single,
    Client.readAllElements_eq]
  cases hending : ending i.final i.messages with
  | item v => exact absurd hending (ending_ne_item _ _ v)
  | failed status => rfl
  | finished => cases readable i.messages <;> rfl

/-- Enough deliveries are all that comes of a response, and then ends. -/
theorem deliver_of_lt {c : Cursor} {i : Incoming} {n : Nat} (hc : c.incoming = some i)
    (hn : i.messages.length < n) :
    (c.deliver n).1 = i.deliveries ++ List.replicate (n - i.deliveries.length) .finished ∧
      (c.deliver n).2.isClosed = true := by
  have hlength : i.deliveries.length ≤ n := by
    have hle := readable_length_le i.messages
    rw [Incoming.deliveries, List.length_append, List.length_map, List.length_singleton]
    omega
  obtain ⟨hdeliveries, hclosed⟩ := c.delivers n hc
  rw [hdeliveries, List.take_of_length_le hlength, hclosed]
  exact ⟨rfl, decide_eq_true hlength⟩

/-! ## The two ways to take in a response -/

/-- What a call shows of the response that comes in for it. -/
theorem outcome_of_call {i : Incoming} (h : (s.client.exchange s.service .call r).1 = .ok i) :
    (s.step (.call r)).1 =
      .ofExcept (fun status => .callError (.transport (.status status))) .value
        (Client.single i) := by
  show Outcome.ofExcept Outcome.callError .value (s.client.call s.service r).1 = _
  rw [Client.call_of_ok h]
  cases Client.single i <;> rfl

/-- A first message that does not come in is the first thing that a stream shows, and what a call
shows. -/
theorem shown_of_first_error {i : Incoming} {m : List UInt8} {status : Status} (k : Nat)
    (hm : i.messages.head? = some m) (hreceive : receiveElement m = .error status) :
    ((i.deliveries ++ List.replicate k Delivery.finished).map Outcome.ofDelivery).head? =
        some (.transportError (.status status)) ∧
      Client.single i = .error status := by
  obtain ⟨messages, final, held⟩ := i
  obtain ⟨rest, rfl⟩ : ∃ rest, messages = m :: rest := List.head?_eq_some_iff.mp hm
  constructor
  · rw [Incoming.deliveries, readable_of_error hreceive, ending_of_error final hreceive]
    rfl
  · rw [Client.single, Client.readAllElements, hreceive]

/-- **Calls and streams agree.** A stream that was opened by a response and is drained shows all
that comes of it. A call that is answered by the same response shows the error that the stream came
to, if it came to one, and else the first value, and if there is none, that the message is missing.
In particular a first message that is too long or cannot be read is told of in the same words, and a
status that is an error is not lost behind messages that are not too long and can be read. -/
theorem call_agrees_with_drain (s s' : Session) (id : String) (r r' : Request)
    (messages : List (List UInt8)) (final : Status) (n : Nat)
    (hstream : s.AnsweredBy (.stream id r) (.raw messages final))
    (hcall : s'.AnsweredBy (.call r') (.raw messages final)) (hn : messages.length < n) :
    let opened := (s.step (.stream id r)).2
    let asking := List.replicate n (Op.next id)
    let shown := (opened.run asking).map Prod.fst
    let answer := (s'.step (.call r')).1
    (s.step (.stream id r)).1 = .done ∧
    (∃ c, (opened.after asking).find? id = some (.values c) ∧ c.isClosed = true) ∧
    answer = .ofDrain shown ∧
    (∀ m, messages.head? = some m → Message.maxBytes < m.length →
      shown.head? = some (.transportError (.status (Message.tooLong m.length))) ∧
        answer = .callError (.transport (.status (Message.tooLong m.length)))) ∧
    (∀ m status, messages.head? = some m → m.length ≤ Message.maxBytes →
      readElement m = .error status →
        status.code = .internal ∧ shown.head? = some (.transportError (.status status)) ∧
          answer = .callError (.transport (.status status))) ∧
    ((∀ m ∈ messages, m.length ≤ Message.maxBytes ∧ ∃ v, readElement m = .ok v) →
      final.isOk = false → answer = .callError (.transport (.status final))) := by
  intro opened asking shown answer
  have hx := exchange_of_answeredBy rfl hstream
  have hx' := exchange_of_answeredBy rfl hcall
  rw [accept_raw] at hx hx'
  have hstep : s.step (.stream id r) = _ := step_of_opening rfl hx
  have hfound : opened.find? id = some (.values (.opened r.name ⟨messages, final, true⟩)) := by
    show (s.step (.stream id r)).2.find? id = _
    rw [hstep, find?_put, if_pos rfl]
  have hanswer : answer = _ := outcome_of_call hx'
  obtain ⟨houtcomes, hlast⟩ := outcomes_next n hfound
  obtain ⟨hdelivered, hclosed⟩ := deliver_of_lt (c := .opened r.name ⟨messages, final, true⟩) rfl hn
  have hshown : shown = _ := houtcomes
  rw [hdelivered] at hshown
  have hfirst {m : List UInt8} {status : Status} (hm : messages.head? = some m)
      (hreceive : receiveElement m = .error status) :
      shown.head? = some (.transportError (.status status)) ∧
        answer = .callError (.transport (.status status)) := by
    obtain ⟨hhead, hsingle⟩ := shown_of_first_error (i := ⟨messages, final, true⟩) _ hm hreceive
    rw [hshown, hanswer, hsingle]
    exact ⟨hhead, rfl⟩
  refine ⟨by rw [hstep], ⟨_, hlast, hclosed⟩, ?_, ?_, ?_, ?_⟩
  · rw [hanswer, hshown, ofDrain_deliveries]
  · intro m hm hlong
    exact hfirst hm (Message.receive_of_lt hlong)
  · intro m status hm hsize hread
    exact ⟨readElement_error hread, hfirst hm ((Message.receive_of_le hsize).trans hread)⟩
  · intro hall hfinal
    have hending := ending_of_readable final fun m hm =>
      (hall m hm).2.imp fun v hv => receiveElement_eq_ok_iff.mpr ⟨(hall m hm).1, hv⟩
    rw [hfinal] at hending
    rw [hanswer, Client.single, Client.readAllElements_eq, hending]
    rfl

/-- A failure behind two values: the stream gives both of them, the call gives neither. -/
theorem call_agrees_with_drain_late :
    let messages := [Value.encode (.uint64 1), Value.encode .nil]
    let final : Status := ⟨.resourceExhausted, "late"⟩
    let s := start [.raw messages final]
    let opened := (s.step (.stream "a" (.named "q"))).2
    let shown := (opened.run (List.replicate 4 (.next "a"))).map Prod.fst
    s.AnsweredBy (.stream "a" (.named "q")) (.raw messages final) ∧
    s.AnsweredBy (.call (.named "q")) (.raw messages final) ∧ messages.length < 4 ∧
    (∀ m ∈ messages, m.length ≤ Message.maxBytes ∧ ∃ v, readElement m = .ok v) ∧
    (s.step (.call (.named "q"))).1 = .ofDrain shown ∧
    (s.step (.call (.named "q"))).1 = .callError (.transport (.status final)) := by
  intro messages final s opened shown
  have hplain : (Request.named "q").Plain := plain_named (by decide)
  have hsize : (Request.named "q").envelope.encode.length ≤ Message.maxBytes := by decide +kernel
  have hstream : s.AnsweredBy (.stream "a" (.named "q")) (.raw messages final) :=
    answeredBy_of_plain rfl rfl hplain hsize rfl
  have hcall : s.AnsweredBy (.call (.named "q")) (.raw messages final) :=
    answeredBy_of_plain rfl rfl hplain hsize rfl
  have hread : ∀ m ∈ messages, m.length ≤ Message.maxBytes ∧ ∃ v, readElement m = .ok v := by
    rw [List.forall_mem_cons, List.forall_mem_singleton]
    exact ⟨⟨by decide +kernel, _, readElement_encode (by decide) (by decide +kernel)⟩,
      ⟨by decide +kernel, _, readElement_encode (by decide) (by decide +kernel)⟩⟩
  obtain ⟨-, -, hagrees, -, -, hfinal⟩ :=
    call_agrees_with_drain s s "a" (.named "q") (.named "q") messages final 4 hstream hcall
      (by decide)
  exact ⟨hstream, hcall, by decide, hread, hagrees, hfinal hread rfl⟩

/-- The status behind a message that could be read is not met if that message is too long. -/
theorem final_status_not_met :
    let final : Status := ⟨.notFound, "gone"⟩
    let s := start [.raw [Value.bulky.encode] final]
    s.AnsweredBy (.call (.named "q")) (.raw [Value.bulky.encode] final) ∧
    readElement Value.bulky.encode = .ok .bulky ∧ final.isOk = false ∧
    (s.step (.call (.named "q"))).1 ≠ .callError (.transport (.status final)) ∧
    ∃ status : Status, status.code = .outOfRange ∧
      (s.step (.call (.named "q"))).1 = .callError (.transport (.status status)) := by
  intro final s
  have hcall : s.AnsweredBy (.call (.named "q")) (.raw [Value.bulky.encode] final) :=
    answeredBy_of_plain rfl rfl (plain_named (by decide)) (by decide +kernel) rfl
  obtain ⟨hread, hreceive⟩ := receiveElement_bulky
  have hx := exchange_of_answeredBy rfl hcall
  rw [accept_raw] at hx
  have hanswer : (s.step (.call (.named "q"))).1 =
      .callError (.transport (.status (Message.tooLong Value.bulky.encode.length))) := by
    rw [outcome_of_call hx, (shown_of_first_error 0 rfl hreceive).2]
    rfl
  refine ⟨hcall, hread, rfl, ?_, _, rfl, hanswer⟩
  rw [hanswer, ne_eq, Outcome.callError.injEq, CallError.transport.injEq,
    TransportError.status.injEq]
  intro hstatus
  cases congrArg Status.code hstatus

end Session

end NamedQuery
