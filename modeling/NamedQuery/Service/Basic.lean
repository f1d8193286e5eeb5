import NamedQuery.Message
import NamedQuery.Metadata
import NamedQuery.Wire.Envelope

/-!
# Services

A service has two methods, each at a path of its own: one call gives one value, and one stream gives
a sequence of values. A request is received when it came to one of the two paths, not compressed and
with a message that is readable and not too long; all others are refused, and nobody learns of them.
-/

namespace NamedQuery

/-- The methods of a service. -/
inductive Method where
  | call
  | stream
  deriving DecidableEq, Repr

namespace Method

/-- The name of a method. -/
def name : Method → String
  | call => "call"
  | stream => "stream"

/-- Where a method is found. -/
def path : Method → String
  | call => "/generic.GenericService/Call"
  | stream => "/generic.GenericService/Stream"

/-- The method that is found at a path. -/
def ofPath? (p : String) : Option Method :=
  if p = call.path then some call else if p = stream.path then some stream else none

end Method

/-- A request that was received. -/
structure Received where
  method : Method
  name : String
  params : List Wire.Node
  metadata : Metadata

/-- A part of a response. -/
inductive Frame where
  | message (bytes : List UInt8)
  /-- A status. For a client it ends the response, even if the service goes on. -/
  | status (s : Status)
  deriving DecidableEq, Repr

namespace Frame

/-- The message in a frame. -/
def message? : Frame → Option (List UInt8)
  | message bytes => some bytes
  | status _ => none

/-- Whether the frame is a status. -/
def isStatus : Frame → Bool
  | message _ => false
  | status _ => true

/-- The status of a response after one more frame. -/
def settle (earlier : Status) : Frame → Status
  | message _ => earlier
  | status s => s.following earlier

end Frame

/-- The answer to a request. -/
inductive Response where
  | refused (status : Status)
  | frames (fs : List Frame)
  deriving DecidableEq, Repr

namespace Response

/-- The messages of a response, those behind a status as well. -/
def contents : Response → List (List UInt8)
  | refused _ => []
  | frames fs => fs.filterMap Frame.message?

/-- The status of a response as a whole. -/
def status : Response → Status
  | refused s => s
  | frames fs => fs.foldl Frame.settle .success

end Response

namespace Service

/-- The envelope in a message. -/
def readEnvelope (message : List UInt8) : Except Status Wire.Envelope :=
  (Wire.Envelope.decode message).mapError fun e => .internal e.message

/-- Reads messages that must all be readable and not too long, or reports the first that is not. -/
def readAll : List (List UInt8) → Except Status (List Wire.Envelope)
  | [] => .ok []
  | m :: ms =>
    match Message.receive readEnvelope m with
    | .error s => .error s
    | .ok e =>
      match readAll ms with
      | .error s => .error s
      | .ok es => .ok (e :: es)

/-- The first of the messages of a request. -/
def readRequest (messages : List (List UInt8)) : Except Status Wire.Envelope :=
  match readAll messages with
  | .error s => .error s
  | .ok [] => .error (.internal "Missing request message.")
  | .ok (e :: _) => .ok e

/-- The key under which a request says how its messages are compressed. -/
def compressionKey : String := "grpc-encoding"

/-- How the name of a compression is shown: as a text, or, if it is none, by its bytes. -/
def showCompression (name : List UInt8) : String :=
  (Text.ofUtf8? name).getD
    ("[" ++ ", ".intercalate (name.map fun b => Numeral.text b.toNat) ++ "]")

/-- Messages must not be compressed. A request that says nothing of it says that they are not. -/
def checkCompression (metadata : Metadata) : Except Status Unit :=
  match metadata.get? compressionKey with
  | none => .ok ()
  | some name =>
    if name = Text.utf8 "identity" then .ok ()
    else
      .error ⟨.unimplemented,
        s!"Content is compressed with \x60{showCompression name}\x60 which isn't supported"⟩

/-- What is received of a request at a path, or the status that refuses it. -/
def receive (path : String) (messages : List (List UInt8)) (metadata : Metadata) :
    Except Status Received :=
  match Method.ofPath? path with
  | none => .error ⟨.unimplemented, s!"Unknown method: {path}"⟩
  | some method =>
    match checkCompression metadata with
    | .error s => .error s
    | .ok () =>
      match readRequest messages with
      | .error s => .error s
      | .ok e => .ok ⟨method, e.name, e.params, metadata⟩

end Service

end NamedQuery
