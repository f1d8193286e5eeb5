import NamedQuery.Text.Encoding
import NamedQuery.Wire.Node

/-!
# Envelopes

The message that asks for a query: the name of the query and its parameters in order. The name is
left out when it is empty. While an envelope is read its parameters are kept last first; `turn` puts
them in order.
-/

namespace NamedQuery.Wire

/-- A named query with its parameters. -/
structure Envelope where
  name : String
  params : List Node

namespace Envelope

/-- The envelope of an empty message. -/
def empty : Envelope := ⟨"", []⟩

/-- The key of the name. -/
def nameKey : Key := ⟨1, .lengthDelimited⟩

/-- The key of a parameter. -/
def paramKey : Key := ⟨2, .lengthDelimited⟩

/-- The field of the name. -/
def encodeName (name : String) : List UInt8 :=
  if name.isEmpty then [] else nameKey.encode ++ Node.delimited (Text.utf8 name)

/-- The fields of the parameters. -/
def encodeParams (params : List Node) : List UInt8 :=
  params.flatMap fun p => paramKey.encode ++ Node.delimited p.encode

/-- The bytes of an envelope. -/
def encode (e : Envelope) : List UInt8 := encodeName e.name ++ encodeParams e.params

/-- Reads a text behind its length. -/
def readText (input : List UInt8) : Except DecodeError (Piece String input) :=
  match readBytes input with
  | .error f => .error f.error
  | .ok r =>
    match Text.ofUtf8? r.value with
    | none => .error Fault.invalidText.error
    | some s => .ok (r.withValue s)

/-- Reads one field of an envelope. The last name counts; a parameter is put in front of those
before it. -/
def readField : FieldReader Envelope := fun e key input =>
  match key.field with
  | 1 =>
    readKnown .name .lengthDelimited key <|
      match readText input with
      | .error err => .error err
      | .ok r => .ok (r.withValue { e with name := r.value })
  | 2 =>
    readKnown .params .lengthDelimited key <|
      match Node.readNested Node.maxLevels input with
      | .error err => .error err
      | .ok r => .ok (r.withValue { e with params := r.value :: e.params })
  | _ => skipUnknown Node.maxLevels e key input

/-- The envelope with its parameters in the opposite order. -/
def turn (e : Envelope) : Envelope := { e with params := e.params.reverse }

/-- Reads an envelope. -/
def decode (input : List UInt8) : Except DecodeError Envelope :=
  (readMessage readField empty input).map turn

end Envelope

end NamedQuery.Wire
