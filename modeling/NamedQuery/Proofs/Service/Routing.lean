import Mathlib.Data.List.TakeDrop
import Mathlib.Data.List.TakeWhile
import NamedQuery.Proofs.Service.Script

/-!
# Routing

A request runs a handler of the service if it came to the path of a method and its message can be
read and is not too long; of an address only the path counts. Then it is logged as what was read of
it, and a reply is taken if one is left. Every other request is refused and leaves no trace. What
the handler gives is told in full: all elements of a stream are sent, those behind an error as well,
though a client takes in no more than the error.

* `Routed`, `Handled`: the requests that run a handler, and what it gives.
* `handle_of_routed`, `routed_or_refused`: what becomes of requests.
* `told_answer`: a response tells of what the handler gives.
* `requests_routed`: all that is said here of requests.
-/

namespace NamedQuery

/-! ## Paths -/

namespace Address

variable {address : String} {a : Address} {s path : List Char}

/-- The path is what stands in front of the first question mark or hash, if there is one. -/
def IsPathOf (path address : String) : Prop :=
  ∃ rest, address = path ++ rest ∧ '?' ∉ path.toList ∧ '#' ∉ path.toList ∧
    rest.toList.head? ∈ [none, some '?', some '#']

theorem head?_of_isQueryAndFragment (h : isQueryAndFragment s = true) :
    s.head? ∈ [none, some '?', some '#'] := by
  cases s with
  | nil => exact List.mem_cons_self
  | cons c cs =>
    by_cases hc : c = '?'
    · rw [hc]
      exact List.mem_cons_of_mem _ List.mem_cons_self
    · have hhash : c = '#' := by simpa [isQueryAndFragment, isFragment, hc] using h
      rw [hhash]
      exact List.mem_cons_of_mem _ (List.mem_cons_of_mem _ List.mem_cons_self)

theorem readPath?_eq_some (h : readPath? s = some path) :
    ∃ rest, s = path ++ rest ∧ '?' ∉ path ∧ '#' ∉ path ∧
      rest.head? ∈ [none, some '?', some '#'] := by
  rw [readPath?, List.span_eq_takeWhile_dropWhile] at h
  dsimp only at h
  split at h
  case isFalse => cases h
  case isTrue hrest =>
    cases h
    refine ⟨s.dropWhile isPathChar, List.takeWhile_append_dropWhile.symm, ?_, ?_,
      head?_of_isQueryAndFragment hrest⟩
    · intro hmem
      cases (List.mem_takeWhile_imp hmem : isPathChar '?' = true)
    · intro hmem
      cases (List.mem_takeWhile_imp hmem : isPathChar '#' = true)

/-- Of an address without a scheme and an authority only the query and the fragment are left out. -/
theorem isPathOf_pathOf (hroot : address.toList.head? = some '/')
    (h : (parse? address).isSome = true) : IsPathOf (pathOf address) address := by
  obtain ⟨a, ha⟩ := Option.isSome_iff_exists.mp h
  have hread : ∃ path, readPath? address.toList = some path ∧ a = ⟨false, [], path⟩ := by
    rw [parse?] at ha
    dsimp only at ha
    split at ha
    · cases ha
    · split at ha
      · rename_i hstar
        rw [hstar] at hroot
        cases hroot
      · rw [Option.map_eq_some_iff] at ha
        obtain ⟨path, hpath, rfl⟩ := ha
        exact ⟨path, hpath, rfl⟩
  obtain ⟨path, hpath, rfl⟩ := hread
  obtain ⟨rest, haddress, hquestion, hhash, hrest⟩ := readPath?_eq_some hpath
  have hpathOf : pathOf address = String.ofList path := by
    rw [pathOf, ha]
    rfl
  refine ⟨String.ofList rest, ?_, ?_, ?_, ?_⟩
  · rw [hpathOf, ← String.ofList_append, ← haddress, String.ofList_toList]
  · rwa [hpathOf, String.toList_ofList]
  · rwa [hpathOf, String.toList_ofList]
  · rwa [String.toList_ofList]

end Address

/-! ## Requests -/

/-- The request is for a method: it came to the path of the method, with a message that can be read
and is not too long. -/
structure Routed (path : String) (body : Option (List UInt8)) (method : Method)
    (e : Wire.Envelope) : Prop where
  path : path = method.path
  readable : ∃ bytes, body = some bytes ∧ bytes.length ≤ Message.maxBytes ∧
    Wire.Envelope.decode bytes = .ok e

variable {path address : String} {body : Option (List UInt8)} {method : Method} {e : Wire.Envelope}
  {messages : List (List UInt8)} {metadata : Metadata}

/-- The message of an envelope is read as that envelope. -/
theorem Routed.of_encode (hpath : path = method.path) (he : e.Readable)
    (hsize : e.encode.length ≤ Message.maxBytes) : Routed path (some e.encode) method e :=
  ⟨hpath, e.encode, rfl, hsize, (Wire.Envelope.decode_encode e).1 he⟩

theorem Method.ofPath?_eq_none (h : ∀ method : Method, path ≠ method.path) :
    ofPath? path = none := by
  rw [ofPath?, if_neg (h .call), if_neg (h .stream)]

namespace Script

theorem handle_of_receive_error {status : Status} (script : Script)
    (h : Service.receive path messages metadata = .error status) :
    script.handle path messages metadata = (.refused status, script) := by
  rw [handle, h]

/-- Where no method is found, nothing else is looked at. -/
theorem handle_of_astray (script : Script) (messages : List (List UInt8)) (metadata : Metadata)
    (h : ∀ method : Method, path ≠ method.path) :
    script.handle path messages metadata =
      (.refused ⟨.unimplemented, "Unknown method: " ++ path⟩, script) := by
  apply handle_of_receive_error
  rw [Service.receive, Method.ofPath?_eq_none h]
  rfl

theorem handle_of_missing (script : Script) (hpath : path = method.path)
    (hplain : Service.checkCompression metadata = .ok ()) :
    script.handle path [] metadata =
      (.refused (.internal "Missing request message."), script) := by
  apply handle_of_receive_error
  rw [Service.receive_of_path hpath hplain]
  rfl

/-- A message that is too long is refused whatever is in it. -/
theorem handle_of_long (script : Script) (hpath : path = method.path)
    (hplain : Service.checkCompression metadata = .ok ()) {bytes : List UInt8}
    (hlong : Message.maxBytes < bytes.length) :
    script.handle path [bytes] metadata = (.refused (Message.tooLong bytes.length), script) := by
  apply handle_of_receive_error
  rw [hpath]
  exact Service.receive_long method hlong hplain

theorem handle_of_unreadable (script : Script) (hpath : path = method.path)
    (hplain : Service.checkCompression metadata = .ok ()) {bytes : List UInt8}
    (hsize : bytes.length ≤ Message.maxBytes) {err : Wire.DecodeError}
    (h : Wire.Envelope.decode bytes = .error err) :
    script.handle path [bytes] metadata = (.refused (.internal err.message), script) := by
  apply handle_of_receive_error
  rw [Service.receive_of_path hpath hplain, Service.readRequest_single,
    Message.receive_of_le hsize, Service.readEnvelope, h]
  rfl

/-- A request for a method is answered as what was read of it. -/
theorem handle_of_routed (script : Script) (h : Routed path body method e)
    (hplain : Service.checkCompression metadata = .ok ()) :
    script.handle path body.toList metadata =
      script.answer ⟨method, e.name, e.params, metadata⟩ := by
  obtain ⟨hpath, bytes, rfl, hsize, hread⟩ := h
  rw [handle, Service.receive_of_path hpath hplain, Option.toList_some,
    Service.readRequest_single, Message.receive_of_le hsize, Service.readEnvelope, hread]
  rfl

/-- There is nothing between the two: a request is for a method, or it is refused. -/
theorem routed_or_refused (path : String) (body : Option (List UInt8))
    (hplain : Service.checkCompression metadata = .ok ()) :
    (∃ method e, Routed path body method e) ∨
      ∀ script : Script, (script.handle path body.toList metadata).2 = script := by
  by_cases hpath : ∃ method : Method, path = method.path
  · obtain ⟨method, hpath⟩ := hpath
    cases body with
    | none => exact .inr fun script => congrArg Prod.snd (script.handle_of_missing hpath hplain)
    | some bytes =>
      rcases Nat.lt_or_ge Message.maxBytes bytes.length with hlong | hsize
      · exact .inr fun script => congrArg Prod.snd (script.handle_of_long hpath hplain hlong)
      · cases hread : Wire.Envelope.decode bytes with
        | error err =>
          exact .inr fun script =>
            congrArg Prod.snd (script.handle_of_unreadable hpath hplain hsize hread)
        | ok e => exact .inl ⟨method, e, hpath, bytes, rfl, hsize, hread⟩
  · exact .inr fun script =>
      congrArg Prod.snd (script.handle_of_astray body.toList metadata (not_exists.mp hpath))

/-- A request that is answered is logged, and takes a reply if one is left. -/
theorem answer_snd (script : Script) (q : Received) :
    (script.answer q).2 = ⟨script.replies.tail, script.log ++ [q]⟩ := by
  cases hreplies : script.replies with
  | nil =>
    rw [script.answer_of_nil q hreplies]
    rfl
  | cons reply rest =>
    rw [script.answer_of_cons q hreplies]
    rfl

end Script

/-! ## Handlers -/

/-- The message of an element. -/
def Element.message? : Element → Option (List UInt8)
  | node n => some n.encode
  | status _ => none

/-- The error of an element. -/
def Element.status? : Element → Option Status
  | node _ => none
  | status s => some s

/-- What a handler gives for a request. -/
inductive Handled where
  | failed (s : Status)
  | value (n : Wire.Node)
  | elements (es : List Element)

/-- What a handler gives whose reply is prepared. A call that is answered by elements gives no more
than the empty value; messages as they are and breakdowns come from no handler. -/
def Reply.handled? (method : Method) : Reply → Option Handled
  | node n =>
    match method with
    | .call => some (.value n)
    | .stream => some (.elements [.node n])
  | status s => some (.failed s)
  | elements es =>
    match method with
    | .call => some (.value (.ofValue .nil))
    | .stream => some (.elements es)
  | raw _ _ => none
  | broken _ => none

/-- What the handler of a service gives next. -/
def Script.handled? (script : Script) (method : Method) : Option Handled :=
  match script.replies with
  | [] => some (.failed exhausted)
  | reply :: _ => reply.handled? method

/-- What a response tells of the elements of a stream. -/
structure Response.Conveys (r : Response) (es : List Element) : Prop where
  contents : r.contents = es.filterMap Element.message?
  success : es.filterMap Element.status? = [] → r.status = .success
  failure : ∀ s, es.filterMap Element.status? = [s] → r.status = s
  /-- A client takes in what stands in front of the first error, and that error. -/
  accept : r.accept = .ok ⟨Element.messages es, Element.final es, true⟩

/-- What a response tells of what a handler gives: nothing but the status of a failure, one message,
or the elements of a stream. -/
def Handled.Told : Handled → Response → Prop
  | failed s, r => r.contents = [] ∧ r.status = s
  | value n, r => r.contents = [n.encode] ∧ r.status = .success
  | elements es, r => r.Conveys es

/-- The status after the frames of elements depends only on the errors among them. -/
theorem foldl_settle (es : List Element) (earlier : Status) :
    (es.map Element.frame).foldl Frame.settle earlier =
      (es.filterMap Element.status?).foldl (fun earlier s => s.following earlier) earlier := by
  induction es generalizing earlier with
  | nil => rfl
  | cons e es ih =>
    cases e with
    | node n => exact ih earlier
    | status s => exact ih (s.following earlier)

theorem filterMap_frame (es : List Element) :
    (es.map Element.frame).filterMap Frame.message? = es.filterMap Element.message? := by
  induction es with
  | nil => rfl
  | cons e es ih =>
    cases e with
    | node n => exact congrArg (n.encode :: ·) ih
    | status s => exact ih

theorem any_isStatus (es : List Element) :
    (es.map Element.frame).any Frame.isStatus = !(es.filterMap Element.status?).isEmpty := by
  induction es with
  | nil => rfl
  | cons e es ih =>
    cases e with
    | node n => exact ih
    | status s => rfl

/-- Success is told behind elements without an error. -/
theorem frames_eq (es : List Element) :
    Reply.frames es = es.map Element.frame ++
      if es.filterMap Element.status? = [] then [.status .success] else [] := by
  rw [Reply.frames, any_isStatus]
  cases es.filterMap Element.status? with
  | nil => rfl
  | cons s ss => exact (List.append_nil _).symm

theorem following_success (s : Status) : s.following .success = s := by
  obtain ⟨code, message⟩ := s
  rw [Status.following]
  split
  · rename_i hempty
    rw [String.isEmpty_iff] at hempty
    exact congrArg (Status.mk code) hempty.symm
  · rfl

/-- **A stream is told of by all its messages**, those behind an error as well. -/
theorem conveys_frames (es : List Element) : (Response.frames (Reply.frames es)).Conveys es := by
  constructor
  · show (Reply.frames es).filterMap Frame.message? = _
    rw [frames_eq, List.filterMap_append, filterMap_frame]
    split <;> exact List.append_nil _
  · intro hnone
    show (Reply.frames es).foldl Frame.settle .success = _
    rw [frames_eq, if_pos hnone, List.foldl_append, foldl_settle, hnone]
    rfl
  · intro s hone
    show (Reply.frames es).foldl Frame.settle .success = _
    rw [frames_eq, hone, if_neg (List.cons_ne_nil s []), List.append_nil, foldl_settle, hone]
    exact following_success s
  · rw [Response.accept, Reply.ofFrames_frames]

/-- A response tells of what the handler gives. -/
theorem told_response {reply : Reply} {handled : Handled}
    (h : reply.handled? method = some handled) : handled.Told (reply.response method) := by
  cases reply with
  | node n =>
    cases method with
    | call =>
      cases h
      exact ⟨rfl, rfl⟩
    | stream =>
      cases h
      exact conveys_frames [.node n]
  | status s =>
    cases h
    exact ⟨rfl, rfl⟩
  | elements es =>
    cases method with
    | call =>
      cases h
      exact ⟨rfl, rfl⟩
    | stream =>
      cases h
      exact conveys_frames es
  | raw _ _ => cases h
  | broken _ => cases h

theorem told_answer {script : Script} {q : Received} {handled : Handled}
    (h : script.handled? q.method = some handled) : handled.Told (script.answer q).1 := by
  rw [Script.handled?] at h
  cases hreplies : script.replies with
  | nil =>
    rw [hreplies] at h
    cases h
    rw [script.answer_of_nil q hreplies]
    exact ⟨rfl, rfl⟩
  | cons reply rest =>
    rw [hreplies] at h
    rw [script.answer_of_cons q hreplies]
    exact told_response h

/-! ## Services -/

/-- The message of a query whose name is one letter, without parameters. -/
theorem routed_of_letter (hpath : path = method.path) :
    Routed path (some [0x0A, 0x01, 0x71]) method ⟨"q", []⟩ := by
  have hencoded : Wire.Envelope.encode ⟨"q", []⟩ = [0x0A, 0x01, 0x71] := by decide +kernel
  rw [← hencoded]
  exact .of_encode hpath (Wire.Envelope.readable_of_length (by decide +kernel) (by simp))
    (by decide +kernel)

/-- Of a stream that breaks off the service sends what is behind the error as well. A message that
can be read runs no handler if it is too long, though its path is that of a method. -/
theorem sent_behind_error_and_long_refused :
    let es : List Element :=
      [.node (.ofValue (.bool true)), .status ⟨.aborted, "mid"⟩, .node (.ofValue .nil)]
    let script := Script.ofReplies [.elements es]
    let address := "/generic.GenericService/Stream"
    let body : Option (List UInt8) := some [0x0A, 0x01, 0x71]
    Routed (Address.pathOf address) body .stream ⟨"q", []⟩ ∧
      script.handled? .stream = some (.elements es) ∧
      Element.messages es = [[0x08, 0x02, 0x10, 0x01]] ∧
      (script.handleAt address body.toList []).1.contents =
        [[0x08, 0x02, 0x10, 0x01], [0x08, 0x01]] ∧
      (script.handleAt address body.toList []).1.contents ≠ Element.messages es ∧
      Wire.Envelope.decode Service.bulkyEnvelope.encode = .ok Service.bulkyEnvelope ∧
      (script.handleAt address [Service.bulkyEnvelope.encode] []).2 = script ∧
      (script.handleAt address [Service.bulkyEnvelope.encode] []).1.status.code = .outOfRange := by
  intro es script address body
  have hpath : Address.pathOf address = Method.stream.path := by decide +kernel
  have hrouted : Routed (Address.pathOf address) body .stream ⟨"q", []⟩ := routed_of_letter hpath
  have hout : script.handleAt address body.toList [] = script.answer ⟨.stream, "q", [], []⟩ :=
    script.handle_of_routed hrouted rfl
  have hrefused : script.handleAt address [Service.bulkyEnvelope.encode] [] = _ :=
    script.handle_of_long hpath rfl Service.maxBytes_lt_length_encode_bulkyEnvelope
  rw [hout, hrefused]
  exact ⟨hrouted, rfl, by decide +kernel, by decide +kernel, by decide +kernel,
    Service.decode_bulkyEnvelope, rfl, rfl⟩

/-- **A request runs the handler of its method, or it leaves no trace.** It runs the handler exactly
if the path of its address is that of the method and its message is there, is not too long and can
be read. Then what was read is logged, a reply is taken if one is left, and the response tells of
what the handler gives. At any other path the method is unknown, whatever the message; at the path
of a method a message that is missing or that cannot be read is an error inside the exchange, and
one that is too long is out of range, whether it could be read or not. The messages must not be
compressed. -/
theorem requests_routed (hplain : Service.checkCompression metadata = .ok ()) (script : Script)
    (address : String) (body : Option (List UInt8)) :
    let path := Address.pathOf address
    let out := script.handleAt address body.toList metadata
    (address.toList.head? = some '/' → (Address.parse? address).isSome = true →
      Address.IsPathOf path address) ∧
    ((∃ q, out.2 = ⟨script.replies.tail, script.log ++ [q]⟩) ↔
      ∃ method e, Routed path body method e) ∧
    ((∀ method : Method, path ≠ method.path) → out.2 = script ∧ out.1.contents = [] ∧
      out.1.status = ⟨.unimplemented, "Unknown method: " ++ path⟩) ∧
    (∀ method : Method, path = method.path →
      (body = none → out.2 = script ∧ out.1.contents = [] ∧
        out.1.status = .internal "Missing request message.") ∧
      (∀ bytes, body = some bytes → Message.maxBytes < bytes.length →
        out.2 = script ∧ out.1.contents = [] ∧ out.1.status = Message.tooLong bytes.length) ∧
      ∀ bytes err, body = some bytes → bytes.length ≤ Message.maxBytes →
        Wire.Envelope.decode bytes = .error err →
        out.2 = script ∧ out.1.contents = [] ∧ out.1.status = .internal err.message) ∧
    ∀ method e, Routed path body method e →
      out.2 = ⟨script.replies.tail, script.log ++ [⟨method, e.name, e.params, metadata⟩]⟩ ∧
      ∀ handled, script.handled? method = some handled → handled.Told out.1 := by
  intro path out
  have hhandle : out = script.handle path body.toList metadata := rfl
  refine ⟨Address.isPathOf_pathOf, ⟨?_, ?_⟩, ?_, ?_, ?_⟩
  · rintro ⟨q, hout⟩
    refine (Script.routed_or_refused path body hplain).resolve_right fun hrefused => ?_
    -- nothing would be logged
    have hlog : script.log ++ [q] = script.log :=
      congrArg Script.log (hout.symm.trans (hrefused script))
    exact absurd (List.append_right_eq_self.mp hlog) (List.cons_ne_nil q [])
  · rintro ⟨method, e, hrouted⟩
    rw [hhandle, script.handle_of_routed hrouted hplain]
    exact ⟨_, script.answer_snd _⟩
  · intro hastray
    rw [hhandle, script.handle_of_astray body.toList metadata hastray]
    exact ⟨rfl, rfl, rfl⟩
  · intro method hpath
    refine ⟨?_, ?_, ?_⟩
    · intro hbody
      rw [hhandle, hbody, Option.toList_none, script.handle_of_missing hpath hplain]
      exact ⟨rfl, rfl, rfl⟩
    · intro bytes hbody hlong
      rw [hhandle, hbody, Option.toList_some, script.handle_of_long hpath hplain hlong]
      exact ⟨rfl, rfl, rfl⟩
    · intro bytes err hbody hsize herr
      rw [hhandle, hbody, Option.toList_some, script.handle_of_unreadable hpath hplain hsize herr]
      exact ⟨rfl, rfl, rfl⟩
  · intro method e hrouted
    rw [hhandle, script.handle_of_routed hrouted hplain]
    exact ⟨script.answer_snd _, fun handled hhandled => told_answer hhandled⟩

/-- A query behind the path of a method, and a path that is longer by a slash. -/
theorem requests_routed_query :
    let script := Script.ofReplies
      [.elements [.node (.ofValue .nil), .status ⟨.aborted, "mid"⟩], .status .success]
    let body : Option (List UInt8) := some [0x0A, 0x01, 0x71]
    let out := script.handleAt "/generic.GenericService/Stream?x" body.toList []
    let astray := script.handleAt "/generic.GenericService/Stream/" body.toList []
    Service.checkCompression [] = .ok () ∧
    (out.2 = ⟨[.status .success], [⟨.stream, "q", [], []⟩]⟩ ∧ out.1.contents = [[0x08, 0x01]] ∧
      out.1.status = ⟨.aborted, "mid"⟩) ∧
    (astray.2 = script ∧ astray.1.contents = [] ∧
      astray.1.status = ⟨.unimplemented, "Unknown method: /generic.GenericService/Stream/"⟩) := by
  intro script body out astray
  have hplain : Service.checkCompression [] = .ok () := rfl
  have hrouted :
      Routed (Address.pathOf "/generic.GenericService/Stream?x") body .stream ⟨"q", []⟩ :=
    routed_of_letter (by decide +kernel)
  have hpath : Address.pathOf "/generic.GenericService/Stream/" =
      "/generic.GenericService/Stream/" := by decide +kernel
  obtain ⟨-, -, -, -, hmethod⟩ :=
    requests_routed hplain script "/generic.GenericService/Stream?x" body
  obtain ⟨-, -, hastray, -⟩ := requests_routed hplain script "/generic.GenericService/Stream/" body
  obtain ⟨hout, htold⟩ := hmethod .stream ⟨"q", []⟩ hrouted
  have hconveys := htold _ rfl
  refine ⟨hplain, ⟨hout, hconveys.contents.trans (by decide +kernel), hconveys.failure _ rfl⟩, ?_⟩
  rw [hpath] at hastray
  exact hastray fun method => by cases method <;> decide

end NamedQuery
