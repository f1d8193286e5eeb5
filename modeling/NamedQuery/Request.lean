import NamedQuery.Metadata
import NamedQuery.Text.Blank
import NamedQuery.Wire.Conversion
import NamedQuery.Wire.Envelope

/-!
# Requests

What a caller asks for: the name of a query, its parameters in order, and headers. The name must not
be blank; it is sent as it is given.
-/

namespace NamedQuery

/-- A query with its parameters and headers. -/
structure Request where
  name : String
  params : List Value
  headers : List Header

/-- Why a request is not sent. -/
inductive RequestError where
  | emptyName
  deriving DecidableEq, Repr

/-- The wording of a request error. -/
def RequestError.message : RequestError → String
  | .emptyName => "The query name cannot be empty"

namespace Request

/-- A request without parameters and headers. -/
def named (name : String) : Request := ⟨name, [], []⟩

/-- The request with one more parameter. -/
def param (r : Request) (v : Value) : Request := { r with params := r.params ++ [v] }

/-- The request with more parameters. -/
def addParams (r : Request) (vs : List Value) : Request := { r with params := r.params ++ vs }

/-- The request with one more header. -/
def header (r : Request) (h : Header) : Request := { r with headers := r.headers ++ [h] }

/-- Something that is added to a request. -/
inductive Part where
  | param (v : Value)
  | params (vs : List Value)
  | header (h : Header)

/-- The request with one more part. -/
def add (r : Request) : Part → Request
  | .param v => r.param v
  | .params vs => r.addParams vs
  | .header h => r.header h

/-- The request with this name and these parts, in order. -/
def build (name : String) (parts : List Part) : Request := parts.foldl add (named name)

/-- Whether the request can be sent. -/
def validate (r : Request) : Except RequestError Unit :=
  if Text.isBlankText r.name.toList then .error .emptyName else .ok ()

/-- The message that carries the request. -/
def envelope (r : Request) : Wire.Envelope := ⟨r.name, r.params.map Wire.Node.ofValue⟩

end Request

end NamedQuery
