/-!
# Errors of the written forms

What can be wrong with a text or a byte string that is read as hexadecimal digits, as a decimal
number or as a packed amount. A form can be malformed, or well formed and out of range.
-/

namespace NamedQuery

/-- The input does not have the form that is read. -/
inductive FormatError where
  /-- Hexadecimal digits come in pairs; this many (in bytes) cannot. -/
  | oddLength (digits : Nat)
  /-- This character, at this byte of the input, is no hexadecimal digit. -/
  | badHexCharacter (character : Char) (index : Nat)
  /-- A packed amount has sixteen bytes and not this many. -/
  | badAmountLength (bytes : Nat)
  | badDecimal (text : String)
  deriving DecidableEq, Repr

/-- The wording of a format error. -/
def FormatError.message : FormatError → String
  | .oddLength n => s!"Hex string must have an even number of digits, got {n}"
  | .badHexCharacter c i => s!"Invalid hex character '{c}' at position {i}"
  | .badAmountLength n => s!"A 128-bit amount must be exactly 16 bytes long, got {n} bytes"
  | .badDecimal t => s!"Invalid decimal number '{t}'"

/-- The input is a number, and the target cannot hold it. -/
inductive RangeError where
  | negative (text : String)
  /-- A number too large for this many bits, as it was written. -/
  | overflow (text : String) (bits : Nat)
  deriving DecidableEq, Repr

/-- The wording of a range error. -/
def RangeError.message : RangeError → String
  | .negative t => s!"Negative value '{t}' cannot be represented as an unsigned integer"
  | .overflow t bits => s!"Value '{t}' does not fit in {bits} bits"

/-- Why a text was not read as an unsigned number. -/
inductive NumberError where
  | format (e : FormatError)
  | range (e : RangeError)
  deriving DecidableEq, Repr

/-- The wording of a number error. -/
def NumberError.message : NumberError → String
  | .format e => e.message
  | .range e => e.message

end NamedQuery
