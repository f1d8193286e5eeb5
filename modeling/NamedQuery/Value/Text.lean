import NamedQuery.Format.Hex
import NamedQuery.Format.Numeral
import NamedQuery.Json.Document
import NamedQuery.Value.Basic

/-!
# Values as text

The two written forms of a value: a short text for people, in which the kind of each value can be
seen, and a JSON document, in which byte strings are hexadecimal strings.
-/

namespace NamedQuery.Value

/-- The word for a truth value. -/
def writeBool (b : Bool) : List Char :=
  if b then ['t', 'r', 'u', 'e'] else ['f', 'a', 'l', 's', 'e']

mutual

/-- A value as text: numbers in decimal and bytes in hexadecimal digits, and lists in brackets. -/
def write : Value → List Char
  | uint64 n => Numeral.write n.toNat
  | bytes raw => Hex.write raw
  | bool b => writeBool b
  | nil => ['n', 'i', 'l']
  | list [] => ['[', ']']
  | list (c :: cs) => '[' :: (write c ++ writeRest cs)

/-- Further values of a list, each behind a comma and a space, and the end of the list. -/
def writeRest : List Value → List Char
  | [] => [']']
  | c :: cs => ',' :: ' ' :: (write c ++ writeRest cs)

end

/-- A value as text. -/
def text (v : Value) : String := String.ofList v.write

mutual

/-- A value as a JSON document. -/
def toJson : Value → Json.Document
  | uint64 n => .integer n.toNat
  | bytes raw => .string (Hex.text raw)
  | bool b => .bool b
  | nil => .null
  | list cs => .array (toJsonItems cs)

/-- Values as JSON documents. -/
def toJsonItems : List Value → List Json.Document
  | [] => []
  | c :: cs => toJson c :: toJsonItems cs

end

end NamedQuery.Value
