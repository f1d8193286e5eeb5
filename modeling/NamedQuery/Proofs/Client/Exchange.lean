import NamedQuery.Client.Query
import NamedQuery.Proofs.Client.Cursor
import NamedQuery.Proofs.Metadata
import NamedQuery.Proofs.Service.Script
import NamedQuery.Proofs.Wire.Conversion

/-!
# Exchanges

What a client does with a request, check by check, and what the service then receives and gives.

* `prepare_of_blank`, `prepare_of_unready`, `prepare_of_overflow`, `prepare_of_fault`: the checks of
  the client in their order; a request that fails one of them is not sent.
* `exchange_of_compressed`, `exchange_of_long`: what the service refuses without a trace.
* `exchange_of_received`: every other request uses up one reply, and is logged once.
* `exchange_ok`: a stream that was opened is fed from the reply that was used up.
-/

namespace NamedQuery

/-! ## Requests -/

namespace Request

/-- The parameters that a part adds. -/
def Part.values : Part → List Value
  | .param v => [v]
  | .params vs => vs
  | .header _ => []

/-- The headers that a part adds. -/
def Part.headers : Part → List Header
  | .header h => [h]
  | _ => []

theorem foldl_add (parts : List Part) (r : Request) :
    parts.foldl add r = ⟨r.name, r.params ++ parts.flatMap Part.values,
      r.headers ++ parts.flatMap Part.headers⟩ := by
  induction parts generalizing r with
  | nil => simp only [List.foldl_nil, List.flatMap_nil, List.append_nil]
  | cons p parts ih =>
    rw [List.foldl_cons, ih, List.flatMap_cons, List.flatMap_cons]
    cases p <;> simp [add, param, addParams, header, Part.values, Part.headers]

theorem build_eq (name : String) (parts : List Part) :
    build name parts = ⟨name, parts.flatMap Part.values, parts.flatMap Part.headers⟩ :=
  foldl_add parts (named name)

/-- An envelope that is not too long is read back, if its parameters are not nested too deep. -/
theorem envelope_readable {r : Request} (hsize : r.envelope.encode.length ≤ Message.maxBytes)
    (hdepth : ∀ v ∈ r.params, v.depth < Wire.Node.maxLevels) : r.envelope.Readable := by
  refine Wire.Envelope.readable_of_length (Message.lt_size_of_le hsize) fun p hp => ?_
  obtain ⟨v, hv, rfl⟩ := List.mem_map.mp hp
  rw [Wire.Node.depth_ofValue]
  exact hdepth v hv

end Request

/-- A value that is not too long is read back, if it is not nested too deep. -/
theorem readElement_encode {v : Value} (hdepth : v.depth ≤ 100)
    (hsize : v.encode.length < UInt64.size) : readElement v.encode = .ok v := by
  have hread : Wire.Node.decode v.encode = .ok (.ofValue v) :=
    (Wire.Node.decode_encode (.ofValue v)).1
      ⟨Wire.Node.fits_of_length hsize, by rwa [Wire.Node.depth_ofValue]⟩
  rw [readElement, hread]
  dsimp only
  rw [Wire.Node.toValue_ofValue]

/-- A value whose message is not too long comes in, if it is not nested too deep. -/
theorem receiveElement_encode {v : Value} (hdepth : v.depth ≤ 100)
    (hsize : v.encode.length ≤ Message.maxBytes) : receiveElement v.encode = .ok v :=
  receiveElement_eq_ok_iff.mpr ⟨hsize, readElement_encode hdepth (Message.lt_size_of_le hsize)⟩

/-- A value whose message is too long does not come in, however well it could be read. -/
theorem receiveElement_bulky :
    readElement Value.bulky.encode = .ok .bulky ∧
      receiveElement Value.bulky.encode =
        .error (Message.tooLong Value.bulky.encode.length) := by
  refine ⟨readElement_encode ?_ Value.length_encode_bulky_lt,
    Message.receive_of_lt Value.maxBytes_lt_length_encode_bulky⟩
  rw [Value.depth_bulky]
  decide

/-- How the last header that says so wants messages to be compressed. -/
def Metadata.compression (hs : List Header) : Option (List UInt8) :=
  lastValue hs Service.compressionKey

theorem Metadata.get?_compression (hs : List Header) :
    (sent (hs.foldl put [])).get? Service.compressionKey = compression hs := by
  rw [get?_sent, if_neg (by decide), get?_foldl_put]
  exact Option.or_none

namespace Client

variable {c : Client} {r : Request} {service : Script} {method : Method} {e : CallError}
  {envelope : Wire.Envelope} {metadata : Metadata}

/-! ## The checks of the client -/

theorem prepare_of_blank (h : Text.isBlankText r.name.toList = true) :
    c.prepare r = .error (.invalidRequest .emptyName) := by
  rw [prepare, Request.validate, if_pos h]

theorem prepare_of_unready {reason : String} (h : Text.isBlankText r.name.toList = false)
    (hc : c.unready = some reason) : c.prepare r = .error (.transport (.notReady reason)) := by
  rw [prepare, Request.validate, if_neg (by rw [h]; exact Bool.false_ne_true)]
  simp only [hc]

theorem prepare_of_overflow (h : Text.isBlankText r.name.toList = false) (hc : c.unready = none)
    (hroom : Metadata.Overflows r.headers) : c.prepare r = .error .brokenOff := by
  rw [prepare, Request.validate, if_neg (by rw [h]; exact Bool.false_ne_true)]
  simp only [hc, Metadata.outgoing_of_overflow hroom]

theorem prepare_of_fault {e : HeaderError} (h : Text.isBlankText r.name.toList = false)
    (hc : c.unready = none) (hroom : ¬Metadata.Overflows r.headers)
    (hr : r.headers.findSome? Header.fault = some e) :
    c.prepare r = .error (.transport (.header e)) := by
  rw [prepare, Request.validate, if_neg (by rw [h]; exact Bool.false_ne_true)]
  simp only [hc, Metadata.outgoing_of_fault hr hroom]

theorem prepare_of_valid (h : Text.isBlankText r.name.toList = false)
    (hc : c.unready = none) (hroom : ¬Metadata.Overflows r.headers)
    (hr : r.headers.findSome? Header.fault = none) :
    c.prepare r = .ok (r.envelope, Metadata.sent (r.headers.foldl Metadata.put [])) := by
  rw [prepare, Request.validate, if_neg (by rw [h]; exact Bool.false_ne_true)]
  simp only [hc, (Metadata.outgoing_of_valid hr hroom).2]

/-! ## The exchange -/

theorem exchange_of_error (h : c.prepare r = .error e) :
    c.exchange service method r = (.error e, service) := by
  rw [exchange, h]

theorem exchange_of_ok (h : c.prepare r = .ok (envelope, metadata)) :
    c.exchange service method r =
      let answer := service.handle method.path [envelope.encode] metadata
      (answer.1.accept.mapError fun s => .transport (.status s), answer.2) := by
  rw [exchange, h]

/-- A request that is refused leaves no trace. -/
theorem exchange_of_refused {status : Status} (h : c.prepare r = .ok (envelope, metadata))
    (hm : Service.receive method.path [envelope.encode] metadata = .error status) :
    c.exchange service method r = (.error (.transport (.status status)), service) := by
  rw [exchange_of_ok h, Script.handle, hm]
  simp only [Response.accept, Service.receive_error hm]
  rfl

/-- A request that asks for a compression is refused, and the service does not know of it. -/
theorem exchange_of_compressed {status : Status} (h : c.prepare r = .ok (envelope, metadata))
    (hm : Service.checkCompression metadata = .error status) :
    c.exchange service method r = (.error (.transport (.status status)), service) :=
  exchange_of_refused h (Service.receive_compressed method _ hm)

/-- So is a request whose message is too long. -/
theorem exchange_of_long (h : c.prepare r = .ok (envelope, metadata))
    (hm : Service.checkCompression metadata = .ok ())
    (hsize : Message.maxBytes < envelope.encode.length) :
    c.exchange service method r =
      (.error (.transport (.status (Message.tooLong envelope.encode.length))), service) :=
  exchange_of_refused h (Service.receive_long method hsize hm)

/-- A request that is received uses up one reply, if there is one, and is logged once. -/
theorem exchange_of_received (h : c.prepare r = .ok (envelope, metadata)) (he : envelope.Readable)
    (hsize : envelope.encode.length ≤ Message.maxBytes)
    (hm : Service.checkCompression metadata = .ok ()) :
    (c.exchange service method r).2 = ⟨service.replies.tail,
      service.log ++ [⟨method, envelope.name, envelope.params, metadata⟩]⟩ := by
  rw [exchange_of_ok h, Script.handle, Service.receive_encode method he hsize hm]
  simp only [Script.answer]
  cases service.replies <;> rfl

/-- What comes in for a request that uses up a reply comes of this reply. -/
theorem exchange_of_used {reply : Reply}
    (h : service.replies = reply :: (c.exchange service method r).2.replies) :
    (c.exchange service method r).1 =
      (reply.response method).accept.mapError fun s => .transport (.status s) := by
  cases hp : c.prepare r with
  | error e =>
    rw [exchange_of_error hp] at h
    exact absurd h.symm (List.cons_ne_self reply _)
  | ok sent =>
    rw [exchange_of_ok hp] at h ⊢
    dsimp only
    rw [Script.handle_of_used h]

/-! ## Streams that are opened -/

/-- **A stream is fed from one reply**, the first that was left. -/
theorem exchange_ok {i : Incoming} (h : (c.exchange service .stream r).1 = .ok i) :
    ∃ reply rest, service.replies = reply :: rest ∧ i = reply.incoming ∧
      i.held = !reply.isBareSuccess := by
  cases hp : c.prepare r with
  | error e =>
    rw [exchange_of_error hp] at h
    cases h
  | ok sent =>
    rw [exchange_of_ok hp] at h
    have haccept : (service.handle Method.stream.path [sent.1.encode] sent.2).1.accept = .ok i := by
      cases ha : (service.handle Method.stream.path [sent.1.encode] sent.2).1.accept with
      | error status =>
        simp only [ha] at h
        cases h
      | ok i' =>
        simp only [ha] at h
        cases h
        rfl
    obtain ⟨reply, rest, hreplies, hresponse⟩ := Script.handle_of_accept haccept
    exact ⟨reply, rest, hreplies, Reply.accept_response hresponse⟩

theorem openStream_of_error (h : (c.exchange service .stream r).1 = .error e) :
    c.openStream service r = (.error e, (c.exchange service .stream r).2) := by
  rw [openStream]
  split <;> rename_i hx <;> rw [hx] at h ⊢ <;> cases h
  rfl

theorem openStream_of_ok {i : Incoming} (h : (c.exchange service .stream r).1 = .ok i) :
    c.openStream service r = (.ok (.opened r.name i), (c.exchange service .stream r).2) := by
  rw [openStream]
  split <;> rename_i hx <;> rw [hx] at h ⊢ <;> cases h
  rfl

/-! ## Calls -/

theorem call_of_error (h : (c.exchange service .call r).1 = .error e) :
    c.call service r = (.error e, (c.exchange service .call r).2) := by
  rw [call]
  split <;> rename_i hx <;> rw [hx] at h ⊢ <;> cases h
  rfl

theorem call_of_ok {i : Incoming} (h : (c.exchange service .call r).1 = .ok i) :
    c.call service r = ((single i).mapError fun s => .transport (.status s),
      (c.exchange service .call r).2) := by
  rw [call]
  split <;> rename_i hx <;> rw [hx] at h ⊢ <;> cases h
  rfl

/-- Whatever comes in for a call, the service is as the exchange leaves it. -/
theorem call_snd : (c.call service r).2 = (c.exchange service .call r).2 := by
  rw [call]
  split <;> rename_i h <;> rw [h]

theorem query_snd {α : Type} (read : Value → Except QueryError α) :
    (c.query service r read).2 = (c.exchange service .call r).2 := by
  rw [← call_snd, query]
  split <;> rename_i h <;> rw [h]

theorem query_of_error {α : Type} (read : Value → Except QueryError α)
    (h : (c.exchange service .call r).1 = .error e) :
    c.query service r read = (.error (.call e), (c.exchange service .call r).2) := by
  rw [query, call_of_error h]

/-! ## Other services -/

/-- Nothing comes of a request whatever the service is, or the service answers it. -/
theorem exchange_refused_or_answered (c : Client) (method : Method) (r : Request) :
    (∃ e, ∀ service, c.exchange service method r = (.error e, service)) ∨
    ∃ q, ∀ service, c.exchange service method r =
      ((service.answer q).1.accept.mapError fun s => .transport (.status s),
        (service.answer q).2) := by
  cases hp : c.prepare r with
  | error e => exact .inl ⟨e, fun service => exchange_of_error hp⟩
  | ok sent =>
    rcases Script.handle_refused_or_answered method.path [sent.1.encode] sent.2 with
      ⟨status, hstatus, hrefused⟩ | ⟨q, hanswered⟩
    · refine .inl ⟨.transport (.status status), fun service => ?_⟩
      rw [exchange_of_ok hp, hrefused]
      simp only [Response.accept, hstatus]
      rfl
    · refine .inr ⟨q, fun service => ?_⟩
      rw [exchange_of_ok hp, hanswered]

variable {service' : Script}

/-- A call makes of a response what it does whatever else the service has. -/
theorem call_fst_congr
    (h : (c.exchange service' .call r).1 = (c.exchange service .call r).1) :
    (c.call service' r).1 = (c.call service r).1 := by
  cases hx : (c.exchange service .call r).1 with
  | error e => rw [call_of_error hx, call_of_error (h.trans hx)]
  | ok i => rw [call_of_ok hx, call_of_ok (h.trans hx)]

theorem query_fst_congr {α : Type} (read : Value → Except QueryError α)
    (h : (c.exchange service' .call r).1 = (c.exchange service .call r).1) :
    (c.query service' r read).1 = (c.query service r read).1 := by
  have hcall := call_fst_congr h
  rw [query, query]
  cases hx : c.call service r with
  | mk answer rest =>
    cases hx' : c.call service' r with
    | mk answer' rest' =>
      rw [hx, hx'] at hcall
      cases hcall
      cases answer <;> rfl

end Client

end NamedQuery
