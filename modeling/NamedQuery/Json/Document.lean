import NamedQuery.Decimal.Shortest

/-!
# JSON documents

The type of documents and their two written forms: compact, without any blanks, and pretty, with two
spaces per level. Members of an object stand in the order of the bytes of their keys, and a key
occurs once. Inside strings only quotes, backslashes and the control characters below U+0020 are
escaped.
-/

namespace NamedQuery.Json

/-- A JSON document. Whole numbers of 64 bits are kept apart from other numbers. -/
inductive Document where
  | null
  | bool (b : Bool)
  /-- A whole number, at least `-2 ^ 63` and below `2 ^ 64`. -/
  | integer (n : Int)
  | float (x : Float)
  | string (s : String)
  | array (items : List Document)
  | object (members : List (String × Document))
  deriving Inhabited

/-- The quote around strings. -/
def quote : Char := '\x22'

/-- The lowercase digit of a value below sixteen. -/
def hexDigit (n : Nat) : Char := if n < 10 then Char.ofNat (48 + n) else Char.ofNat (87 + n)

/-- A character inside a string. -/
def escape (c : Char) : List Char :=
  if c = quote then ['\\', quote]
  else if c = '\\' then ['\\', '\\']
  else if c = '\n' then ['\\', 'n']
  else if c = '\r' then ['\\', 'r']
  else if c = '\t' then ['\\', 't']
  else if c = '\x08' then ['\\', 'b']
  else if c = '\x0c' then ['\\', 'f']
  else if c.toNat < 0x20 then
    ['\\', 'u', '0', '0', hexDigit (c.toNat / 16), hexDigit (c.toNat % 16)]
  else [c]

/-- A string between quotes. -/
def writeString (s : List Char) : List Char := quote :: (s.flatMap escape ++ [quote])

/-- Numbers stand in place from `10 ^ -5` to below `10 ^ 16`. -/
def floatLayout : Decimal.Layout where
  plainFrom := -5
  plainBelow := 16

/-- The text of a document that has no parts; nothing for a document that has. -/
def Document.writeLeaf : Document → List Char
  | .null => ['n', 'u', 'l', 'l']
  | .bool true => ['t', 'r', 'u', 'e']
  | .bool false => ['f', 'a', 'l', 's', 'e']
  | .integer n => Numeral.writeInt n
  | .float x => Decimal.writeFloat floatLayout x
  | .string s => writeString s.toList
  | .array _ | .object _ => []

mutual

/-- The document without blanks. -/
def Document.compact : Document → List Char
  | .array [] => ['[', ']']
  | .array (d :: ds) => '[' :: (d.compact ++ compactItems ds)
  | .object [] => ['\x7b', '\x7d']
  | .object ((k, d) :: ms) =>
    '\x7b' :: (writeString k.toList ++ ':' :: d.compact ++ compactMembers ms)
  | d => d.writeLeaf

/-- Further items of an array, and its end. -/
def compactItems : List Document → List Char
  | [] => [']']
  | d :: ds => ',' :: (d.compact ++ compactItems ds)

/-- Further members of an object, and its end. -/
def compactMembers : List (String × Document) → List Char
  | [] => ['\x7d']
  | (k, d) :: ms => ',' :: (writeString k.toList ++ ':' :: d.compact ++ compactMembers ms)

end

/-- A new line at a level of nesting. -/
def newline (level : Nat) : List Char := '\n' :: List.replicate (2 * level) ' '

mutual

/-- The document on lines, its parts one level deeper than `level`. -/
def Document.prettyAt (level : Nat) : Document → List Char
  | .array [] => ['[', ']']
  | .array (d :: ds) =>
    '[' :: (newline (level + 1) ++ d.prettyAt (level + 1) ++ prettyItems level ds)
  | .object [] => ['\x7b', '\x7d']
  | .object ((k, d) :: ms) =>
    '\x7b' :: (newline (level + 1) ++ writeString k.toList ++ ':' :: ' ' ::
      d.prettyAt (level + 1) ++ prettyMembers level ms)
  | d => d.writeLeaf

/-- Further items of an array at a level, and its end. -/
def prettyItems (level : Nat) : List Document → List Char
  | [] => newline level ++ [']']
  | d :: ds => ',' :: (newline (level + 1) ++ d.prettyAt (level + 1) ++ prettyItems level ds)

/-- Further members of an object at a level, and its end. -/
def prettyMembers (level : Nat) : List (String × Document) → List Char
  | [] => newline level ++ ['\x7d']
  | (k, d) :: ms =>
    ',' :: (newline (level + 1) ++ writeString k.toList ++ ':' :: ' ' ::
      d.prettyAt (level + 1) ++ prettyMembers level ms)

end

/-- The document on lines. -/
def Document.pretty (d : Document) : List Char := d.prettyAt 0

/-- The members with one more: in the order of the keys, and a later value in place of an earlier.
-/
def insertMember (k : String) (d : Document) : List (String × Document) → List (String × Document)
  | [] => [(k, d)]
  | (k', d') :: ms =>
    if k < k' then (k, d) :: (k', d') :: ms
    else if k = k' then (k, d) :: ms
    else (k', d') :: insertMember k d ms

end NamedQuery.Json
