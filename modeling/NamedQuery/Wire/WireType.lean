import NamedQuery.Wire.Varint

/-!
# Wire types and keys

A message is a sequence of fields, each behind a key: the number of the field and the wire type,
which tells how the end of the field is found.
-/

namespace NamedQuery.Wire

/-- How the end of a field is found. -/
inductive WireType where
  | varint
  | sixtyFourBit
  /-- The field is as long as the varint in front of it says. -/
  | lengthDelimited
  /-- The field consists of further fields up to an end key. -/
  | startGroup
  | endGroup
  | thirtyTwoBit
  deriving DecidableEq, Repr

namespace WireType

/-- The name of a wire type in messages. -/
def name : WireType → String
  | varint => "Varint"
  | sixtyFourBit => "SixtyFourBit"
  | lengthDelimited => "LengthDelimited"
  | startGroup => "StartGroup"
  | endGroup => "EndGroup"
  | thirtyTwoBit => "ThirtyTwoBit"

/-- The number of a wire type. -/
def code : WireType → Nat
  | varint => 0
  | sixtyFourBit => 1
  | lengthDelimited => 2
  | startGroup => 3
  | endGroup => 4
  | thirtyTwoBit => 5

/-- The wire type with a number. -/
def ofCode? : Nat → Option WireType
  | 0 => some varint
  | 1 => some sixtyFourBit
  | 2 => some lengthDelimited
  | 3 => some startGroup
  | 4 => some endGroup
  | 5 => some thirtyTwoBit
  | _ => none

theorem ofCode?_code (w : WireType) : ofCode? w.code = some w := by cases w <;> rfl

end WireType

/-- What stands in front of a field. -/
structure Key where
  field : Nat
  wireType : WireType
  deriving DecidableEq, Repr

/-- The bytes of a key. -/
def Key.encode (k : Key) : List UInt8 := Varint.encode (8 * k.field + k.wireType.code)

end NamedQuery.Wire
