import NamedQuery.Proofs.Client.Exchange

/-!
# Calls that are answered

A request without headers passes all checks once its name is not blank and its parameters are not
nested too deep. A client that is ready gets the first reply for it, unless the message is too long:
the value that the service sends, if that is not too long in turn, or the status with which it
fails. Either way the service has one request more in its log and one reply less.

* `exchange_of_plain`, `exchange_of_long_plain`: what comes in for such a request, and the service
  behind it.
* `call_of_value`, `call_of_long_value`, `call_of_status`: a call that is answered by a value, or by
  an error.
* `query_eq`: a query is a call whose value is read.
-/

namespace NamedQuery

/-- Requests without headers in which there is nothing that could be refused but the length. -/
structure Request.Plain (r : Request) : Prop where
  name : Text.isBlankText r.name.toList = false
  headers : r.headers = []
  depth : ∀ v ∈ r.params, v.depth < Wire.Node.maxLevels

/-- Parameters that have nothing below them are not nested too deep. -/
theorem Request.plain_of_flat {name : String} {params : List Value}
    (hname : Text.isBlankText name.toList = false) (hflat : ∀ v ∈ params, v.depth = 0) :
    (mk name params []).Plain := by
  refine ⟨hname, rfl, ?_⟩
  intro v hv
  rw [hflat v hv]
  decide

/-- What is received of a request without headers. -/
def Request.received (r : Request) (method : Method) : Received :=
  ⟨method, r.name, r.params.map Wire.Node.ofValue, []⟩

/-- The service behind one more request, which used up the first reply. -/
def Script.using (script : Script) (rest : List Reply) (q : Received) : Script :=
  ⟨rest, script.log ++ [q]⟩

namespace Client

variable {c : Client} {r : Request} {service : Script} {method : Method} {reply : Reply}
  {rest : List Reply} {v : Value}

theorem prepare_of_plain (hc : c.unready = none) (hr : r.Plain) :
    c.prepare r = .ok (r.envelope, []) := by
  have hroom : ¬Metadata.Overflows r.headers := by
    rw [hr.headers]
    exact Metadata.not_overflows_of_length_le (by decide)
  have hfault : r.headers.findSome? Header.fault = none := by
    rw [hr.headers]
    rfl
  rw [prepare_of_valid hr.name hc hroom hfault, hr.headers]
  rfl

/-! ## Exchanges -/

theorem exchange_of_plain (hc : c.unready = none) (hr : r.Plain)
    (hsize : r.envelope.encode.length ≤ Message.maxBytes)
    (hreplies : service.replies = reply :: rest) :
    c.exchange service method r =
      ((reply.response method).accept.mapError fun s => .transport (.status s),
        service.using rest (r.received method)) := by
  have hafter : (c.exchange service method r).2 = service.using rest (r.received method) := by
    rw [exchange_of_received (prepare_of_plain hc hr) (Request.envelope_readable hsize hr.depth)
      hsize rfl, hreplies]
    rfl
  have hused : service.replies = reply :: (c.exchange service method r).2.replies := by
    rw [hafter, hreplies]
    rfl
  rw [← exchange_of_used hused, ← hafter]

theorem exchange_of_long_plain (hc : c.unready = none) (hr : r.Plain)
    (hsize : Message.maxBytes < r.envelope.encode.length) :
    c.exchange service method r =
      (.error (.transport (.status (Message.tooLong r.envelope.encode.length))), service) :=
  exchange_of_long (prepare_of_plain hc hr) rfl hsize

/-! ## Calls -/

theorem call_of_long (hc : c.unready = none) (hr : r.Plain)
    (hsize : Message.maxBytes < r.envelope.encode.length) :
    c.call service r =
      (.error (.transport (.status (Message.tooLong r.envelope.encode.length))), service) := by
  have hx : c.exchange service .call r = _ := exchange_of_long_plain hc hr hsize
  rw [call_of_error (by rw [hx]), hx]

/-- What a call makes of the one message of a value. -/
theorem call_of_node (hc : c.unready = none) (hr : r.Plain)
    (hsize : r.envelope.encode.length ≤ Message.maxBytes)
    (hreplies : service.replies = .node (.ofValue v) :: rest) :
    c.call service r =
      ((receiveElement v.encode).mapError fun s => .transport (.status s),
        service.using rest (r.received .call)) := by
  have hx : c.exchange service .call r = _ := exchange_of_plain hc hr hsize hreplies
  have hsingle : single ⟨[v.encode], .success, true⟩ = receiveElement v.encode := by
    rw [single, readAllElements]
    cases receiveElement v.encode <;> rfl
  rw [call_of_ok (i := ⟨[v.encode], .success, true⟩) (by rw [hx]; rfl), hsingle, hx]

theorem call_of_value (hc : c.unready = none) (hr : r.Plain)
    (hsize : r.envelope.encode.length ≤ Message.maxBytes)
    (hreplies : service.replies = .node (.ofValue v) :: rest) (hdepth : v.depth ≤ 100)
    (hvalue : v.encode.length ≤ Message.maxBytes) :
    c.call service r = (.ok v, service.using rest (r.received .call)) := by
  rw [call_of_node hc hr hsize hreplies, receiveElement_encode hdepth hvalue]
  rfl

theorem call_of_long_value (hc : c.unready = none) (hr : r.Plain)
    (hsize : r.envelope.encode.length ≤ Message.maxBytes)
    (hreplies : service.replies = .node (.ofValue v) :: rest)
    (hvalue : Message.maxBytes < v.encode.length) :
    c.call service r =
      (.error (.transport (.status (Message.tooLong v.encode.length))),
        service.using rest (r.received .call)) := by
  rw [call_of_node hc hr hsize hreplies, receiveElement, Message.receive_of_lt hvalue]
  rfl

theorem call_of_status {status : Status} (hc : c.unready = none) (hr : r.Plain)
    (hsize : r.envelope.encode.length ≤ Message.maxBytes)
    (hreplies : service.replies = .status status :: rest) (hstatus : status.isOk = false) :
    c.call service r =
      (.error (.transport (.status status)), service.using rest (r.received .call)) := by
  have hx : c.exchange service .call r = _ := exchange_of_plain hc hr hsize hreplies
  have haccept : ((Reply.status status).response .call).accept = .error status := by
    rw [Reply.response, Response.accept, hstatus]
    rfl
  rw [haccept] at hx
  rw [call_of_error (e := .transport (.status status)) (by rw [hx]; rfl), hx]

theorem query_eq {α : Type} (c : Client) (service : Script) (r : Request)
    (read : Value → Except QueryError α) :
    c.query service r read =
      (((c.call service r).1.mapError .call).bind read, (c.call service r).2) := by
  rw [query]
  split <;> rename_i h <;> rw [h] <;> rfl

end Client

end NamedQuery
