import NamedQuery.Metadata
import NamedQuery.Value.Read

/-!
# Literals

The texts in which arguments are written. A parameter is a byte string behind `bytes:` or in the
hexadecimal form with its marker, or a number behind `u64:` or in decimal digits alone. A header is
a key and a value with a colon between them. Counts and times are plain numbers: no blanks are taken
off.
-/

namespace NamedQuery.CommandLine

/-- What can be wrong with a literal. -/
inductive LiteralError where
  /-- A parameter looks like a byte string and is none. -/
  | badBytes (e : FormatError)
  /-- A parameter says that it is a number and is none. -/
  | badNumber (e : NumberError)
  | badParam (text : String) (e : NumberError)
  | badHex (e : FormatError)
  | badHeader
  | badSeconds (text : String) (e : NumeralFault)
  | badCount (e : NumeralFault)
  deriving DecidableEq, Repr

/-- The wording of a literal error. -/
def LiteralError.message : LiteralError → String
  | .badBytes e => s!"Invalid bytes param: {e.message}"
  | .badNumber e => s!"Invalid u64 param: {e.message}"
  | .badParam text e =>
    s!"Invalid param '{text}': {e.message}. Expected 'bytes:0x..', 'u64:N', '0x..' or 'N'"
  | .badHex e => s!"Invalid hex: {e.message}"
  | .badHeader => "Format must be 'key:value'"
  | .badSeconds text e => s!"Invalid number of seconds '{text}': {e.message}"
  | .badCount e => e.message

/-- The word before a byte string. -/
def bytesWord : List Char := ['b', 'y', 't', 'e', 's', ':']

/-- The word before a number. -/
def numberWord : List Char := ['u', '6', '4', ':']

/-- Reads a parameter. -/
def readParam (s : String) : Except LiteralError Value :=
  match Text.after? bytesWord s.toList with
  | some digits => (Value.ofHex (String.ofList digits)).mapError .badBytes
  | none =>
    match Text.after? numberWord s.toList with
    | some digits => (Value.ofDecimal (String.ofList digits)).mapError .badNumber
    | none =>
      match Text.after? Hex.marker s.toList with
      | some _ => (Value.ofHex s).mapError .badBytes
      | none => (Value.ofDecimal s).mapError (.badParam s)

/-- Reads a byte string. -/
def readBytes (s : String) : Except LiteralError (List UInt8) := (Hex.parse s).mapError .badHex

/-- Reads a header: what stands before the first colon and what stands after it, without the blanks
at their ends. -/
def readHeader (s : String) : Except LiteralError Header :=
  match s.toList.span (· != ':') with
  | (_, []) => .error .badHeader
  | (key, _ :: value) =>
    .ok ⟨String.ofList (Text.trim key), String.ofList (Text.trim value)⟩

/-- Reads a time in seconds. -/
def readSeconds (s : String) : Except LiteralError Nat :=
  (Numeral.read Width.word.bound s.toList).mapError (.badSeconds s)

/-- Reads a count. -/
def readCount (s : String) : Except LiteralError Nat :=
  (Numeral.read Width.word.bound s.toList).mapError .badCount

end NamedQuery.CommandLine
