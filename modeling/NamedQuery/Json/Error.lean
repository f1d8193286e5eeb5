import NamedQuery.Format.Numeral

/-!
# Errors of JSON documents

Why a text is no JSON document, and where. A text that ends too early is told apart from one that is
wrong where it stands.
-/

namespace NamedQuery.Json

/-- Why a text is no JSON document. -/
inductive Cause where
  /-- The text ends where a value is expected, or inside one. -/
  | eofValue
  | eofArray
  | eofObject
  | eofString
  | expectedColon
  /-- An item is not followed by a comma or the end of its array. -/
  | expectedCommaOrBracket
  /-- A member is not followed by a comma or the end of its object. -/
  | expectedCommaOrBrace
  | expectedWord
  | expectedValue
  | invalidEscape
  | invalidNumber
  | numberOutOfRange
  | invalidText
  | controlCharacter
  | keyNotString
  | loneSurrogate
  | trailingComma
  | trailingCharacters
  /-- The first half of a surrogate pair is not followed by an escape. -/
  | missingSurrogate
  | tooDeep
  deriving DecidableEq, Repr

/-- Whether the text ended too early. -/
def Cause.isEnd : Cause → Bool
  | .eofValue | .eofArray | .eofObject | .eofString => true
  | _ => false

/-- The wording of a cause. -/
def Cause.message : Cause → String
  | .eofValue => "EOF while parsing a value"
  | .eofArray => "EOF while parsing a list"
  | .eofObject => "EOF while parsing an object"
  | .eofString => "EOF while parsing a string"
  | .expectedColon => "expected \x60:\x60"
  | .expectedCommaOrBracket => "expected \x60,\x60 or \x60]\x60"
  | .expectedCommaOrBrace => "expected \x60,\x60 or \x60\x7d\x60"
  | .expectedWord => "expected ident"
  | .expectedValue => "expected value"
  | .invalidEscape => "invalid escape"
  | .invalidNumber => "invalid number"
  | .numberOutOfRange => "number out of range"
  | .invalidText => "invalid unicode code point"
  | .controlCharacter => "control character (\\u0000-\\u001F) found while parsing a string"
  | .keyNotString => "key must be a string"
  | .loneSurrogate => "lone leading surrogate in hex escape"
  | .trailingComma => "trailing comma"
  | .trailingCharacters => "trailing characters"
  | .missingSurrogate => "unexpected end of hex escape"
  | .tooDeep => "recursion limit exceeded"

/-- A cause, and the bytes behind the place that it points at. -/
structure ParseError where
  cause : Cause
  rest : List UInt8
  deriving DecidableEq, Repr

/-- An error about what was just read. -/
def ParseError.here (cause : Cause) (rest : List UInt8) : ParseError := ⟨cause, rest⟩

/-- An error about the byte that comes next. -/
def ParseError.next (cause : Cause) (rest : List UInt8) : ParseError := ⟨cause, rest.tail⟩

/-- The wording of an error in `input`: the cause, the line, and the number of bytes on that line.
-/
def ParseError.message (input : List UInt8) (e : ParseError) : String :=
  let before := input.take (input.length - e.rest.length)
  let line := before.count 10 + 1
  let column := (before.reverse.takeWhile (· != 10)).length
  s!"{e.cause.message} at line {line} column {column}"

end NamedQuery.Json
