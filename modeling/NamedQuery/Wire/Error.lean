import NamedQuery.Format.Numeral
import NamedQuery.Wire.WireType

/-!
# Errors of undecodable messages

What is wrong with bytes that are no message, and in which field. Fields are listed from the inside
out: the field where the fault was found, then the field that holds its message, and so on.
-/

namespace NamedQuery.Wire

/-- What can be wrong with the bytes of a message. -/
inductive Fault where
  | invalidVarint
  | invalidKey (key : Nat)
  | invalidWireType (code : Nat)
  | invalidField
  /-- A field is written with another wire type than its own. -/
  | unexpectedWireType (found expected : WireType)
  | underflow
  | invalidText
  /-- A field of a message runs past the end of the message. -/
  | lengthExceeded
  | recursionLimit
  /-- A group ends that is not the innermost open one. -/
  | unexpectedEndGroup
  deriving DecidableEq, Repr

/-- The wording of a fault. -/
def Fault.message : Fault → String
  | .invalidVarint => "invalid varint"
  | .invalidKey key => s!"invalid key value: {key}"
  | .invalidWireType code => s!"invalid wire type value: {code}"
  | .invalidField => "invalid tag value: 0"
  | .unexpectedWireType found expected =>
    s!"invalid wire type: {found.name} (expected {expected.name})"
  | .underflow => "buffer underflow"
  | .invalidText => "invalid string value: data is not UTF-8 encoded"
  | .lengthExceeded => "delimited length exceeded"
  | .recursionLimit => "recursion limit reached"
  | .unexpectedEndGroup => "unexpected end group tag"

/-- The fields in which faults are located. -/
inductive Location where
  | discriminant
  | payload
  | children
  | name
  | params
  deriving DecidableEq, Repr

/-- The name of a location in messages. -/
def Location.label : Location → String
  | .discriminant => "Value.t"
  | .payload => "Value.primitive"
  | .children => "Value.children"
  | .name => "GenericParams.name"
  | .params => "GenericParams.params"

/-- Why bytes are no message. -/
structure DecodeError where
  fault : Fault
  /-- Where, from the inside out; nothing for a fault outside of the known fields. -/
  path : List Location
  deriving DecidableEq, Repr

/-- The same error, seen from the message around it. -/
def DecodeError.inside (location : Location) (e : DecodeError) : DecodeError :=
  { e with path := e.path ++ [location] }

/-- The wording of a decode error. -/
def DecodeError.message (e : DecodeError) : String :=
  let place := String.join (e.path.map fun l => l.label ++ ": ")
  s!"failed to decode Protobuf message: {place}{e.fault.message}"

end NamedQuery.Wire
