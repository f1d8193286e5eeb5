import NamedQuery.Address
import NamedQuery.Service.Basic
import NamedQuery.Wire.Conversion

/-!
# Scripted services

A service that gives prepared replies, one to each request that it receives, and keeps a log of the
requests. When the replies have run out, every request is refused.
-/

namespace NamedQuery

/-- An element of a stream. -/
inductive Element where
  | node (n : Wire.Node)
  | status (s : Status)

/-- A prepared reply. -/
inductive Reply where
  | node (n : Wire.Node)
  | status (s : Status)
  /-- The elements of a stream; a call is answered by nothing at all. -/
  | elements (es : List Element)
  /-- Messages as they are, and the status behind them. -/
  | raw (messages : List (List UInt8)) (final : Status)
  | broken (text : String)

/-- An element as a part of a response. -/
def Element.frame : Element → Frame
  | node n => .message n.encode
  | status s => .status s

namespace Reply

/-- The frames of a stream; success is told at the end unless a status was told before. -/
def frames (es : List Element) : List Frame :=
  let fs := es.map Element.frame
  if fs.any Frame.isStatus then fs else fs ++ [.status .success]

/-- The response to a request for a method. -/
def response (method : Method) : Reply → Response
  | .node n => .frames [.message n.encode, .status .success]
  | .status s => .refused s
  | .elements es =>
    match method with
    | .call => .frames [.message (Wire.Node.ofValue .nil).encode, .status .success]
    | .stream => .frames (frames es)
  | .raw messages final => .frames (messages.map .message ++ [.status final])
  | .broken text => .refused ⟨.unknown, text⟩

end Reply

/-- A service with prepared replies. -/
structure Script where
  replies : List Reply
  /-- The requests received so far, the first first. -/
  log : List Received

namespace Script

/-- A service that has received nothing yet. -/
def ofReplies (replies : List Reply) : Script := ⟨replies, []⟩

/-- The refusal of requests when the replies have run out. -/
def exhausted : Status := ⟨.unimplemented, "no scripted reply"⟩

/-- The answer to a request that was received. -/
def answer (s : Script) (r : Received) : Response × Script :=
  match s.replies with
  | [] => (.refused exhausted, { s with log := s.log ++ [r] })
  | reply :: replies => (reply.response r.method, ⟨replies, s.log ++ [r]⟩)

/-- The answer to whatever comes in at a path. -/
def handle (s : Script) (path : String) (messages : List (List UInt8)) (metadata : Metadata) :
    Response × Script :=
  match Service.receive path messages metadata with
  | .error status => (.refused status, s)
  | .ok r => s.answer r

/-- The answer to whatever comes in at an address: of that only the path counts. -/
def handleAt (s : Script) (address : String) (messages : List (List UInt8))
    (metadata : Metadata) : Response × Script :=
  s.handle (Address.pathOf address) messages metadata

end Script

end NamedQuery
