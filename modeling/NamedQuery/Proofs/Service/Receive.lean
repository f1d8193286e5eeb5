import NamedQuery.Proofs.Message
import NamedQuery.Proofs.Wire.Envelope
import NamedQuery.Service.Basic

/-!
# What a service receives

A service refuses what it does not receive, always with an error. What a client sends for a method
it receives as it was meant, if nothing is wrong with the size and the nesting of the message, and
unless the metadata ask for a compression.

* `receive_encode`, `receive_long`: the message of an envelope is received as that envelope, unless
  it is too long.
* `receive_error`: a refusal is never a success.
* `messages_read_as_sent`: what is read of a message is what was sent, up to the limit on nesting.
* `long_message_not_received`: what can be read need not be received.
-/

namespace NamedQuery

theorem Method.ofPath?_path (m : Method) : ofPath? m.path = some m := by
  cases m <;> rfl

namespace Service

variable {method : Method} {path : String} {messages : List (List UInt8)} {metadata : Metadata}
  {status : Status}

/-! ## Compression -/

theorem checkCompression_of_none (h : metadata.get? compressionKey = none) :
    checkCompression metadata = .ok () := by
  rw [checkCompression, h]

theorem checkCompression_of_identity
    (h : metadata.get? compressionKey = some (Text.utf8 "identity")) :
    checkCompression metadata = .ok () := by
  rw [checkCompression, h]
  exact if_pos rfl

theorem checkCompression_of_other {encoding : List UInt8}
    (h : metadata.get? compressionKey = some encoding) (hne : encoding ≠ Text.utf8 "identity") :
    ∃ status, checkCompression metadata = .error status := by
  rw [checkCompression, h]
  exact ⟨_, if_neg hne⟩

theorem checkCompression_error (h : checkCompression metadata = .error status) :
    status.code = .unimplemented := by
  unfold checkCompression at h
  split at h
  · cases h
  · split at h
    · cases h
    · cases h
      rfl

/-! ## Requests -/

theorem readEnvelope_error {message : List UInt8} (h : readEnvelope message = .error status) :
    status.code = .internal := by
  rw [readEnvelope] at h
  cases hread : Wire.Envelope.decode message <;> rw [hread] at h <;> cases h
  rfl

/-- A message is refused for its length, or because it cannot be read. -/
theorem receive_readEnvelope_error {message : List UInt8}
    (h : Message.receive readEnvelope message = .error status) :
    status.code = .outOfRange ∨ status.code = .internal := by
  rcases Message.receive_eq_error_iff.mp h with ⟨-, rfl⟩ | ⟨-, hread⟩
  · exact .inl rfl
  · exact .inr (readEnvelope_error hread)

theorem readAll_error (h : readAll messages = .error status) :
    status.code = .outOfRange ∨ status.code = .internal := by
  induction messages with
  | nil => cases h
  | cons m ms ih =>
    rw [readAll] at h
    split at h
    · rename_i hm
      cases h
      exact receive_readEnvelope_error hm
    · split at h
      · rename_i hms
        cases h
        exact ih hms
      · cases h

theorem readRequest_error (h : readRequest messages = .error status) :
    status.code = .outOfRange ∨ status.code = .internal := by
  unfold readRequest at h
  split at h
  · rename_i hall
    cases h
    exact readAll_error hall
  · cases h
    exact .inr rfl
  · cases h

theorem readRequest_single (bytes : List UInt8) :
    readRequest [bytes] = Message.receive readEnvelope bytes := by
  rw [readRequest, readAll]
  cases Message.receive readEnvelope bytes <;> rfl

/-- What is received at the path of a method was asked of that method. -/
theorem receive_method {q : Received} (h : receive method.path messages metadata = .ok q) :
    q.method = method := by
  unfold receive at h
  rw [Method.ofPath?_path] at h
  dsimp only at h
  split at h
  · cases h
  · split at h
    · cases h
    · cases h
      rfl

/-- What is not received is refused with an error. -/
theorem receive_error (h : receive path messages metadata = .error status) :
    status.isOk = false := by
  unfold receive at h
  split at h
  · cases h
    rfl
  · split at h
    · rename_i hc
      cases h
      rw [Status.isOk, checkCompression_error hc]
      rfl
    · split at h
      · rename_i hr
        cases h
        rw [Status.isOk]
        rcases readRequest_error hr with hcode | hcode <;> rw [hcode] <;> rfl
      · cases h

theorem receive_of_path (hpath : path = method.path)
    (hplain : checkCompression metadata = .ok ()) :
    receive path messages metadata =
      (readRequest messages).map fun e => ⟨method, e.name, e.params, metadata⟩ := by
  rw [receive, hpath, Method.ofPath?_path]
  simp only [hplain]
  cases readRequest messages <;> rfl

theorem receive_encode (method : Method) {e : Wire.Envelope} (he : e.Readable)
    (hsize : e.encode.length ≤ Message.maxBytes) (hm : checkCompression metadata = .ok ()) :
    receive method.path [e.encode] metadata = .ok ⟨method, e.name, e.params, metadata⟩ := by
  rw [receive_of_path rfl hm, readRequest_single, Message.receive_of_le hsize, readEnvelope,
    (Wire.Envelope.decode_encode e).1 he]
  rfl

/-- A message that is too long is refused whatever is in it. -/
theorem receive_long (method : Method) {message : List UInt8}
    (hsize : Message.maxBytes < message.length) (hm : checkCompression metadata = .ok ()) :
    receive method.path [message] metadata = .error (Message.tooLong message.length) := by
  rw [receive_of_path rfl hm, readRequest_single, Message.receive_of_lt hsize]
  rfl

theorem receive_compressed (method : Method) (messages : List (List UInt8))
    (hm : checkCompression metadata = .error status) :
    receive method.path messages metadata = .error status := by
  rw [receive, Method.ofPath?_path]
  simp only [hm]

/-! ## What was sent -/

open Wire in
/-- **Messages are read as they were sent**, whatever discriminants and payloads they have: whether
they stand for values is asked later. A node is read up to a hundred levels and an envelope if its
parameters have less, as it takes a level itself; one parameter that is deeper is enough for nothing
to be read. The bytes must be few enough that 64 bits count them, as no length can say more. A
service reads what was sent in the same way, if it receives the message; one that is too long is
refused before it is read. -/
theorem messages_read_as_sent :
    (∀ w : Node, (w.depth ≤ 100 → w.encode.length < UInt64.size → Node.decode w.encode = .ok w) ∧
      (100 < w.depth → ∃ err, Node.decode w.encode = .error err)) ∧
    ∀ e : Envelope,
      ((∀ p ∈ e.params, p.depth ≤ 99) → e.encode.length < UInt64.size →
        Envelope.decode e.encode = .ok e) ∧
      ((∃ p ∈ e.params, 100 ≤ p.depth) → ∃ err, Envelope.decode e.encode = .error err) ∧
      ∀ method metadata, checkCompression metadata = .ok () →
        ((∀ p ∈ e.params, p.depth ≤ 99) → e.encode.length ≤ Message.maxBytes →
          receive method.path [e.encode] metadata = .ok ⟨method, e.name, e.params, metadata⟩) ∧
        ((∃ p ∈ e.params, 100 ≤ p.depth) → e.encode.length ≤ Message.maxBytes →
          ∃ err, Envelope.decode e.encode = .error err ∧
            receive method.path [e.encode] metadata = .error (.internal err.message)) ∧
        (Message.maxBytes < e.encode.length →
          receive method.path [e.encode] metadata =
            .error (Message.tooLong e.encode.length)) := by
  have hreadable {e : Envelope} (hdepth : ∀ p ∈ e.params, p.depth ≤ 99)
      (hsize : e.encode.length < UInt64.size) : e.Readable :=
    Envelope.readable_of_length hsize fun p hp => Nat.lt_succ_of_le (hdepth p hp)
  have hfail {e : Envelope} (hdeep : ∃ p ∈ e.params, 100 ≤ p.depth) :
      ∃ err, Envelope.decode e.encode = .error err := by
    obtain ⟨p, hp, hdeep⟩ := hdeep
    refine (Envelope.decode_encode e).2 ?_
    intro hreadable
    exact absurd hdeep (Nat.not_le.mpr (hreadable.params p hp).2.2)
  refine ⟨fun w => ⟨?_, ?_⟩, fun e => ⟨?_, hfail, fun method metadata hplain => ⟨?_, ?_, ?_⟩⟩⟩
  · intro hdepth hsize
    exact (Node.decode_encode w).1 ⟨Node.fits_of_length hsize, hdepth⟩
  · intro hdeep
    refine (Node.decode_encode w).2 ?_
    rintro ⟨-, hdepth⟩
    exact absurd hdeep (Nat.not_lt.mpr hdepth)
  · intro hdepth hsize
    exact (Envelope.decode_encode e).1 (hreadable hdepth hsize)
  · intro hdepth hsize
    exact receive_encode method (hreadable hdepth (Message.lt_size_of_le hsize)) hsize hplain
  · intro hdeep hsize
    obtain ⟨err, herr⟩ := hfail hdeep
    refine ⟨err, herr, ?_⟩
    rw [receive_of_path rfl hplain, readRequest_single, Message.receive_of_le hsize, readEnvelope,
      herr]
    rfl
  · intro hlong
    exact receive_long method hlong hplain

/-- A node with `n` levels below it, none of which stands for a value. -/
def valueless (n : Nat) : Wire.Node :=
  Nat.repeat (fun w => ⟨23, some (.bool true), [w]⟩) n ⟨-1, some (.bytes [0xAB]), []⟩

set_option maxRecDepth 20000 in
/-- The last level that is read of a node and of a parameter, and the first that is not. -/
theorem messages_read_as_sent_valueless :
    let e : Wire.Envelope := ⟨"q", [valueless 99, .empty]⟩
    let tooDeep : Wire.Envelope := ⟨"", [.empty, valueless 100]⟩
    ((valueless 100).depth ≤ 100 ∧ (valueless 100).encode.length < UInt64.size ∧
      Wire.Node.decode (valueless 100).encode = .ok (valueless 100)) ∧
    (100 < (valueless 101).depth ∧ ∃ err, Wire.Node.decode (valueless 101).encode = .error err) ∧
    ((∀ p ∈ e.params, p.depth ≤ 99) ∧ e.encode.length < UInt64.size ∧
      e.encode.length ≤ Message.maxBytes ∧ checkCompression [] = .ok () ∧
      Wire.Envelope.decode e.encode = .ok e ∧
      receive Method.call.path [e.encode] [] = .ok ⟨.call, e.name, e.params, []⟩) ∧
    ((∃ p ∈ tooDeep.params, 100 ≤ p.depth) ∧
      ∃ err, Wire.Envelope.decode tooDeep.encode = .error err) := by
  intro e tooDeep
  obtain ⟨hnode, henvelope⟩ := messages_read_as_sent
  have hdepth : (valueless 100).depth ≤ 100 := by decide_cbv
  have hsize : (valueless 100).encode.length < UInt64.size := by decide_cbv
  have hdeep : 100 < (valueless 101).depth := by decide_cbv
  have hparams : ∀ p ∈ e.params, p.depth ≤ 99 := by decide_cbv
  have hencoded : e.encode.length ≤ Message.maxBytes := by decide +kernel
  have hcounted : e.encode.length < UInt64.size := Message.lt_size_of_le hencoded
  have hparam : ∃ p ∈ tooDeep.params, 100 ≤ p.depth := by decide_cbv
  obtain ⟨hread, -, hreceive⟩ := henvelope e
  obtain ⟨-, hfail, -⟩ := henvelope tooDeep
  refine ⟨⟨hdepth, hsize, (hnode _).1 hdepth hsize⟩, ⟨hdeep, (hnode _).2 hdeep⟩, ?_, hparam,
    hfail hparam⟩
  exact ⟨hparams, hcounted, hencoded, rfl, hread hparams hcounted,
    (hreceive .call [] rfl).1 hparams hencoded⟩

/-! ## Messages that are too long -/

/-- The envelope of a query with one parameter, which alone is as long as a message may be. -/
def bulkyEnvelope : Wire.Envelope := ⟨"q", [.ofValue .bulky]⟩

theorem depth_bulkyEnvelope : ∀ p ∈ bulkyEnvelope.params, p.depth ≤ 99 := by
  rw [bulkyEnvelope, List.forall_mem_singleton, Wire.Node.depth_ofValue, Value.depth_bulky]
  decide

theorem length_encode_bulkyEnvelope : bulkyEnvelope.encode.length = Message.maxBytes + 15 := by
  have hname : (Wire.Envelope.encodeName "q").length = 3 := by decide +kernel
  have hkey : Wire.Envelope.paramKey.encode.length = 1 := by decide +kernel
  have hprefix : (Wire.Varint.encode (Message.maxBytes + 7)).length = 4 := by decide +kernel
  have hparam : (Wire.Node.ofValue .bulky).encode.length = _ := Value.length_encode_bulky
  rw [bulkyEnvelope, Wire.Envelope.encode, Wire.Envelope.encodeParams, List.flatMap_singleton,
    Wire.Node.delimited]
  simp only [List.length_append, hname, hkey, hparam, hprefix]
  omega

theorem maxBytes_lt_length_encode_bulkyEnvelope :
    Message.maxBytes < bulkyEnvelope.encode.length := by
  rw [length_encode_bulkyEnvelope]
  exact Nat.lt_add_of_pos_right (by decide)

theorem length_encode_bulkyEnvelope_lt : bulkyEnvelope.encode.length < UInt64.size := by
  rw [length_encode_bulkyEnvelope]
  decide

theorem decode_bulkyEnvelope : Wire.Envelope.decode bulkyEnvelope.encode = .ok bulkyEnvelope :=
  (Wire.Envelope.decode_encode _).1 (Wire.Envelope.readable_of_length
    length_encode_bulkyEnvelope_lt fun p hp => Nat.lt_succ_of_le (depth_bulkyEnvelope p hp))

/-- What can be read is not received if it is too long. -/
theorem long_message_not_received :
    (∀ p ∈ bulkyEnvelope.params, p.depth ≤ 99) ∧
    bulkyEnvelope.encode.length < UInt64.size ∧
    Wire.Envelope.decode bulkyEnvelope.encode = .ok bulkyEnvelope ∧
    ∀ method : Method, ∃ status : Status, status.code = .outOfRange ∧
      receive method.path [bulkyEnvelope.encode] [] = .error status :=
  ⟨depth_bulkyEnvelope, length_encode_bulkyEnvelope_lt, decode_bulkyEnvelope, fun method =>
    ⟨_, rfl, receive_long method maxBytes_lt_length_encode_bulkyEnvelope rfl⟩⟩

end Service

end NamedQuery
