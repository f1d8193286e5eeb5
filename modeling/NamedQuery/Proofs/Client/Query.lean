import NamedQuery.Proofs.Client.Answer
import NamedQuery.Proofs.Format.Amount

/-!
# Queries with a known result

Each of the queries sends one request of a fixed form, and reads of the value that comes back what
its form says: a number, an amount in sixteen bytes, or a JSON document in bytes. Of any other value
it tells what is wrong with it, and of a call that failed it tells that.

* `ReadsAs`: which results are read, and what is said of a value of another kind.
* `Asks`, `query_of_plain`: a query sends its request once, and reads the value or tells the status.
* `queries_read_exactly`: the three queries, their requests and their results.
* `long_reply_not_read`: a value that comes back need not come in.
-/

namespace NamedQuery

namespace Client

/-! ## Results -/

/-- Whether an answer is what is read of a value: exactly what is accepted is read, and a value that
is not of the expected kind is reported with both kinds. -/
structure ReadsAs {α : Type} (v : Value) (expected : Kind) (accepted : α → Prop)
    (answer : Except QueryError α) : Prop where
  ok_iff : ∀ a, answer = .ok a ↔ accepted a
  otherKind : v.kind ≠ expected → answer = .error (.value (.unexpectedKind expected v.kind))

theorem readBalance_readsAs (v : Value) :
    ReadsAs v .uint64 (fun n => v = .uint64 n) (readBalance v) := by
  constructor
  · intro n
    rw [readBalance, mapError_eq_ok, Value.asUInt64_eq_ok]
  · intro h
    rw [readBalance, Value.asUInt64_of_kind h]
    rfl

theorem readTokenBalance_readsAs (v : Value) :
    ReadsAs v .bytes (fun a => v = .bytes a.pack) (readTokenBalance v) := by
  constructor
  · intro a
    rw [readTokenBalance, mapError_eq_ok, Amount.ofValue_eq_ok, Amount.toValue]
  · intro h
    rw [readTokenBalance, Amount.ofValue_of_kind h]
    rfl

theorem readTransfer_bytes (raw : List UInt8) :
    readTransfer (.bytes raw) = (Json.Document.parse raw).mapError (.json raw) := rfl

theorem readTransfer_of_kind {v : Value} (h : v.kind ≠ .bytes) :
    readTransfer v = .error (.value (.unexpectedKind .bytes v.kind)) := by
  rw [readTransfer, Value.asBytes_of_kind h]

theorem readTransfer_readsAs (v : Value) :
    ReadsAs v .bytes (fun d => ∃ raw, v = .bytes raw ∧ Json.Document.parse raw = .ok d)
      (readTransfer v) := by
  refine ⟨?_, readTransfer_of_kind⟩
  intro d
  by_cases hbytes : v.kind = .bytes
  · obtain ⟨raw, rfl⟩ := Value.eq_bytes_of_kind hbytes
    rw [readTransfer_bytes, mapError_eq_ok]
    simp
  · rw [readTransfer_of_kind hbytes]
    constructor
    · intro h
      cases h
    · rintro ⟨raw, rfl, -⟩
      exact absurd rfl hbytes

/-- What is wrong with a value is never told as what is wrong with a text. -/
theorem mapError_value_ne_format {α : Type} (x : Except ValueError α) (e : FormatError) :
    x.mapError QueryError.value ≠ .error (.format e) := by
  intro h
  cases x <;> cases h

theorem readTransfer_ne_format (v : Value) (e : FormatError) :
    readTransfer v ≠ .error (.format e) := by
  by_cases hbytes : v.kind = .bytes
  · obtain ⟨raw, rfl⟩ := Value.eq_bytes_of_kind hbytes
    rw [readTransfer_bytes]
    intro h
    cases hparse : Json.Document.parse raw <;> rw [hparse] at h <;> cases h
  · rw [readTransfer_of_kind hbytes]
    intro h
    cases h

/-! ## Queries -/

section Query

variable {α : Type} {c : Client} {r : Request} {service : Script} {reply : Reply}
  {rest : List Reply} {read : Value → Except QueryError α}

/-- The error of a query whose call has failed with this status. -/
def failed (s : Status) : QueryError := .call (.transport (.status s))

/-- What a query comes to whose request is received: there is one more request in the log and one
reply less. The answer is what is read of the value that comes back, unless that is too long, or it
tells with which status the call has failed. -/
structure Answered (service : Script) (reply : Reply) (rest : List Reply) (r : Request)
    (reads : Value → Except QueryError α → Prop) (result : Except QueryError α × Script) :
    Prop where
  service : result.2 =
    ⟨rest, service.log ++ [⟨.call, r.name, r.params.map Wire.Node.ofValue, []⟩]⟩
  value : ∀ v, reply = .node (.ofValue v) → v.depth ≤ 100 → v.encode.length ≤ Message.maxBytes →
    reads v result.1
  longValue : ∀ v, reply = .node (.ofValue v) → Message.maxBytes < v.encode.length →
    result.1 = .error (failed (Message.tooLong v.encode.length))
  status : ∀ s, reply = .status s → s.isOk = false → result.1 = .error (failed s)

/-- What a query comes to: its request is refused if its message is too long, and the service does
not know of it; otherwise it is received. -/
structure Asks (service : Script) (reply : Reply) (rest : List Reply) (r : Request)
    (reads : Value → Except QueryError α → Prop) (result : Except QueryError α × Script) :
    Prop where
  long : Message.maxBytes < r.envelope.encode.length →
    result = (.error (failed (Message.tooLong r.envelope.encode.length)), service)
  received : r.envelope.encode.length ≤ Message.maxBytes →
    Answered service reply rest r reads result

theorem Asks.imp {reads reads' : Value → Except QueryError α → Prop}
    {result : Except QueryError α × Script} (h : Asks service reply rest r reads result)
    (himp : ∀ v x, reads v x → reads' v x) : Asks service reply rest r reads' result := by
  refine ⟨h.long, fun hsize => ?_⟩
  obtain ⟨hservice, hvalue, hlong, hstatus⟩ := h.received hsize
  exact ⟨hservice, fun v hv hdepth hv' => himp v _ (hvalue v hv hdepth hv'), hlong, hstatus⟩

theorem query_of_plain (hc : c.unready = none) (hr : r.Plain)
    (hreplies : service.replies = reply :: rest) :
    Asks service reply rest r (fun v x => x = read v) (c.query service r read) := by
  rw [query_eq]
  constructor
  · intro hlong
    rw [call_of_long hc hr hlong]
    rfl
  · intro hsize
    constructor
    · show (c.call service r).2 = _
      rw [call_snd, exchange_of_plain hc hr hsize hreplies]
      rfl
    · rintro v rfl hdepth hvalue
      rw [call_of_value hc hr hsize hreplies hdepth hvalue]
      rfl
    · rintro v rfl hvalue
      rw [call_of_long_value hc hr hsize hreplies hvalue]
      rfl
    · rintro s rfl hs
      rw [call_of_status hc hr hsize hreplies hs]
      rfl

theorem query_of_flat {name : String} {params : List Value} (hc : c.unready = none)
    (hreplies : service.replies = reply :: rest) (hr : r = ⟨name, params, []⟩)
    (hname : Text.isBlankText name.toList = false) (hflat : ∀ v ∈ params, v.depth = 0) :
    Asks service reply rest ⟨name, params, []⟩ (fun v x => x = read v)
      (c.query service r read) := by
  subst hr
  exact query_of_plain hc (Request.plain_of_flat hname hflat) hreplies

theorem query_ne_format (hread : ∀ v e, read v ≠ .error (.format e)) (e : FormatError) :
    (c.query service r read).1 ≠ .error (.format e) := by
  rw [query_eq]
  cases (c.call service r).1 with
  | error e =>
    intro h
    cases h
  | ok v => exact hread v e

end Query

/-- **Each query sends one request and reads one form of result.** The requests differ in name and
parameters and nothing else. A value of the right form is read, and of every other value it is told
what is wrong with it; if the service fails, its status is told. Messages that are too long are
refused on either side, whatever is in them. What is wrong with a result is never told as a
malformed text. -/
theorem queries_read_exactly (c : Client) (service : Script) (reply : Reply) (rest : List Reply)
    (typeArgs lockArgs source target : List UInt8) (amount : UInt64) (hready : c.unready = none)
    (hreplies : service.replies = reply :: rest) :
    let balanceRequest : Request := ⟨"balance", [.bytes lockArgs], []⟩
    let tokenRequest : Request := ⟨"balance", [.bytes typeArgs, .bytes lockArgs], []⟩
    let transferRequest : Request :=
      ⟨"transfer", [.bytes typeArgs, .bytes source, .bytes target, .uint64 amount], []⟩
    let balance := c.balance service lockArgs
    let tokenBalance := c.tokenBalance service typeArgs lockArgs
    let transfer := c.transfer service typeArgs source target amount
    Asks service reply rest balanceRequest
      (fun v => ReadsAs v .uint64 fun n => v = .uint64 n) balance ∧
    Asks service reply rest tokenRequest
      (fun v => ReadsAs v .bytes fun a => v = .bytes a.pack) tokenBalance ∧
    Asks service reply rest transferRequest
      (fun v => ReadsAs v .bytes fun d => ∃ raw, v = .bytes raw ∧ Json.Document.parse raw = .ok d)
      transfer ∧
    (∀ raw, reply = .node (.ofValue (.bytes raw)) →
      (Value.bytes raw).encode.length ≤ Message.maxBytes →
      (tokenRequest.envelope.encode.length ≤ Message.maxBytes → raw.length ≠ 16 →
        tokenBalance.1 = .error (.value (.format (.badAmountLength raw.length)))) ∧
      (transferRequest.envelope.encode.length ≤ Message.maxBytes →
        ∀ e, Json.Document.parse raw = .error e → transfer.1 = .error (.json raw e))) ∧
    ∀ e, balance.1 ≠ .error (.format e) ∧ tokenBalance.1 ≠ .error (.format e) ∧
      transfer.1 ≠ .error (.format e) := by
  intro balanceRequest tokenRequest transferRequest balance tokenBalance transfer
  -- all parameters are bytes or numbers, which have nothing below them
  have hbalance : Asks service reply rest balanceRequest (fun v x => x = readBalance v) balance :=
    query_of_flat hready hreplies rfl (by decide) (by simp [Value.depth])
  have htoken :
      Asks service reply rest tokenRequest (fun v x => x = readTokenBalance v) tokenBalance :=
    query_of_flat hready hreplies rfl (by decide) (by simp [Value.depth])
  have htransfer :
      Asks service reply rest transferRequest (fun v x => x = readTransfer v) transfer :=
    query_of_flat hready hreplies rfl (by decide) (by simp [Value.depth])
  refine ⟨hbalance.imp fun v x hx => hx ▸ readBalance_readsAs v,
    htoken.imp fun v x hx => hx ▸ readTokenBalance_readsAs v,
    htransfer.imp fun v x hx => hx ▸ readTransfer_readsAs v, ?_, ?_⟩
  · intro raw hraw hvalue
    have hdepth : (Value.bytes raw).depth ≤ 100 := by simp [Value.depth]
    constructor
    · intro hsize hlength
      rw [(htoken.received hsize).value _ hraw hdepth hvalue, readTokenBalance,
        Amount.ofValue_of_length hlength]
      rfl
    · intro hsize e he
      rw [(htransfer.received hsize).value _ hraw hdepth hvalue, readTransfer_bytes, he]
      rfl
  · intro e
    exact ⟨query_ne_format (fun v => mapError_value_ne_format v.asUInt64) e,
      query_ne_format (fun v => mapError_value_ne_format (Amount.ofValue v)) e,
      query_ne_format readTransfer_ne_format e⟩

/-- Sixteen bytes that are an amount and a JSON document, and no number. -/
theorem queries_read_exactly_digits :
    let raw : List UInt8 := [49, 50, 51, 52, 53, 54, 55, 56, 57, 48, 49, 50, 51, 52, 53, 54]
    let service := Script.ofReplies [.node (.ofValue (.bytes raw))]
    (∀ r ∈ [Request.balance [0xAB], .tokenBalance [] [0xAB], .transfer [] [1] [2] 7],
      r.envelope.encode.length ≤ Message.maxBytes) ∧
    (Value.bytes raw).encode.length ≤ Message.maxBytes ∧
    (ready.transfer service [] [1] [2] 7).2 = ⟨[], [⟨.call, "transfer",
      [.ofValue (.bytes []), .ofValue (.bytes [1]), .ofValue (.bytes [2]), .ofValue (.uint64 7)],
      []⟩]⟩ ∧
    (ready.balance service [0xAB]).1 = .error (.value (.unexpectedKind .uint64 .bytes)) ∧
    (∃ a, (ready.tokenBalance service [] [0xAB]).1 = .ok a) ∧
    (ready.transfer service [] [1] [2] 7).1 = .ok (.integer 1234567890123456) := by
  intro raw service
  have hsize : ∀ r ∈ [Request.balance [0xAB], .tokenBalance [] [0xAB], .transfer [] [1] [2] 7],
      r.envelope.encode.length ≤ Message.maxBytes := by decide +kernel
  have hvalue : (Value.bytes raw).encode.length ≤ Message.maxBytes := by decide +kernel
  have hdepth : (Value.bytes raw).depth ≤ 100 := by decide
  obtain ⟨hbalance, htoken, htransfer, -⟩ :=
    queries_read_exactly ready service _ [] [] [0xAB] [1] [2] 7 rfl rfl
  have hbalance' := hbalance.received (hsize (.balance [0xAB]) (by simp))
  have htoken' := htoken.received (hsize (.tokenBalance [] [0xAB]) (by simp))
  have htransfer' := htransfer.received (hsize (.transfer [] [1] [2] 7) (by simp))
  refine ⟨hsize, hvalue, htransfer'.service, ?_, ?_, ?_⟩
  · exact (hbalance'.value _ rfl hdepth hvalue).otherKind (by decide)
  · have hunpack : ∃ a, Amount.unpack raw = .ok a := ⟨_, dif_pos rfl⟩
    obtain ⟨a, ha⟩ := hunpack
    have hread := htoken'.value _ rfl hdepth hvalue
    exact ⟨a, (hread.ok_iff a).mpr (congrArg Value.bytes (Amount.unpack_eq_ok_iff.mp ha))⟩
  · have hread := htransfer'.value _ rfl hdepth hvalue
    rw [hread.ok_iff]
    exact ⟨raw, rfl, by rfl⟩

/-- A reply whose message is too long is no balance and no value of another kind: the status is
told, as it is for any reply that is an error. -/
theorem long_reply_not_read :
    let service := Script.ofReplies [.node (.ofValue .bulky)]
    Value.bulky.depth ≤ 100 ∧
    (ready.balance service [0xAB]).1 ≠ .error (.value (.unexpectedKind .uint64 Value.bulky.kind)) ∧
    (ready.balance service [0xAB]).1 = .error (failed (Message.tooLong Value.bulky.encode.length)) ∧
    (Message.tooLong Value.bulky.encode.length).code = .outOfRange := by
  intro service
  have hsize : (Request.balance [0xAB]).envelope.encode.length ≤ Message.maxBytes := by
    decide +kernel
  have hasks : Asks service _ [] ⟨"balance", [.bytes [0xAB]], []⟩ (fun v x => x = readBalance v)
      (ready.balance service [0xAB]) :=
    query_of_flat rfl rfl rfl (by decide) (by simp [Value.depth])
  have hlong := (hasks.received hsize).longValue .bulky rfl Value.maxBytes_lt_length_encode_bulky
  refine ⟨?_, ?_, hlong, rfl⟩
  · rw [Value.depth_bulky]
    decide
  · rw [hlong]
    intro h
    cases h

end Client

end NamedQuery
