import NamedQuery.Client.Cursor
import NamedQuery.Service.Script

/-!
# Clients

A client sends requests to a service. Before anything is sent the name of the query is checked, then
the connection, then the headers one by one; a request that fails one of these checks never reaches
the service, and neither does one with more headers than there is room for. Every other request is
sent once. Of a response every message must be readable and not too long.
-/

namespace NamedQuery

/-- A client; the reason why its connection is not ready, if it is not. -/
structure Client where
  unready : Option String
  deriving DecidableEq, Repr

namespace Client

/-- A client whose connection is ready. -/
def ready : Client := ⟨none⟩

/-- What is sent for a request, or why nothing is sent. -/
def prepare (c : Client) (r : Request) : Except CallError (Wire.Envelope × Metadata) :=
  match r.validate with
  | .error e => .error (.invalidRequest e)
  | .ok () =>
    match c.unready with
    | some reason => .error (.transport (.notReady reason))
    | none =>
      match Metadata.outgoing r.headers with
      | .error (.header e) => .error (.transport (.header e))
      | .error .full => .error .brokenOff
      | .ok m => .ok (r.envelope, m)

/-- What comes in for a request, and the service after it. -/
def exchange (c : Client) (service : Script) (method : Method) (r : Request) :
    Except CallError Incoming × Script :=
  match c.prepare r with
  | .error e => (.error e, service)
  | .ok (envelope, metadata) =>
    let (response, service) := service.handle method.path [envelope.encode] metadata
    (response.accept.mapError fun s => .transport (.status s), service)

/-- All values of a response, or its first error. -/
def readAllElements (final : Status) : List (List UInt8) → Except Status (List Value)
  | [] => if final.isOk then .ok [] else .error final
  | m :: ms =>
    match receiveElement m with
    | .error s => .error s
    | .ok v =>
      match readAllElements final ms with
      | .error s => .error s
      | .ok vs => .ok (v :: vs)

/-- The value of a response to a call: its first, if nothing is wrong with the response. -/
def single (i : Incoming) : Except Status Value :=
  match readAllElements i.final i.messages with
  | .error s => .error s
  | .ok [] => .error (.internal "Missing response message.")
  | .ok (v :: _) => .ok v

/-- Asks for one value. -/
def call (c : Client) (service : Script) (r : Request) : Except CallError Value × Script :=
  match c.exchange service .call r with
  | (.error e, service) => (.error e, service)
  | (.ok i, service) => ((single i).mapError fun s => .transport (.status s), service)

/-- Asks for a sequence of values. -/
def openStream (c : Client) (service : Script) (r : Request) : Except CallError Cursor × Script :=
  match c.exchange service .stream r with
  | (.error e, service) => (.error e, service)
  | (.ok i, service) => (.ok (.opened r.name i), service)

end Client

end NamedQuery
