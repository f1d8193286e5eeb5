import NamedQuery.Json.Error
import NamedQuery.Request
import NamedQuery.Status

/-!
# Errors of a client

What can go wrong between a caller and a service, from the inside out: the exchange itself, the
request that asks for it, and the reading of what came back.
-/

namespace NamedQuery

/-- What can go wrong in an exchange. -/
inductive TransportError where
  | notReady (reason : String)
  | header (e : HeaderError)
  | status (s : Status)
  deriving DecidableEq, Repr

/-- The wording of a transport error. -/
def TransportError.message : TransportError → String
  | .notReady reason =>
    s!"gRPC client request error: 'Internal error, the client was not ready: '{reason}''"
  | .header e => s!"gRPC client request error: '{e.message}'"
  | .status s => s!"gRPC call failed with code {s.code.name}: '{s.message}'"

/-- What can go wrong in a call, or when a stream is opened. -/
inductive CallError where
  | invalidRequest (e : RequestError)
  | transport (e : TransportError)
  deriving DecidableEq, Repr

/-- What stands for a break-off. A request with more headers than there is room for ends the whole
program before anything is sent, so nobody is told of an error; here this one takes its place. -/
def CallError.brokenOff : CallError := .transport (.notReady "size overflows MAX_SIZE")

/-- The wording of a call error. -/
def CallError.message : CallError → String
  | .invalidRequest e => s!"Invalid request: '{e.message}'"
  | .transport e => e.message

/-- What can go wrong in a query whose result has a known form. -/
inductive QueryError where
  | call (e : CallError)
  /-- The value that came back is not of the right shape. -/
  | value (e : ValueError)
  /-- The bytes that came back have not the right form. -/
  | format (e : FormatError)
  /-- The bytes that came back are no JSON document. -/
  | json (input : List UInt8) (e : Json.ParseError)

/-- The wording of a query error. -/
def QueryError.message : QueryError → String
  | .call e => e.message
  | .value e => s!"Unexpected result shape: '{e.message}'"
  | .format e => s!"Malformed result: '{e.message}'"
  | .json input e => s!"Result is not a valid JSON document: '{e.message input}'"

end NamedQuery
