import NamedQuery.Text.Encoding

/-!
# Metadata

Headers that travel with a request. Keys are compared without regard to case and sent in lowercase;
of headers with the same key the last one counts. There is room for so many entries and no more, and
a program that puts in another is broken off. Some keys belong to the protocol itself: headers with
such a key are checked and then dropped, and the protocol adds entries of its own.
-/

namespace NamedQuery

/-- A header as the caller gives it. -/
structure Header where
  key : String
  value : String
  deriving DecidableEq, Repr

/-- What can be wrong with a header. -/
inductive HeaderError where
  | invalidKey (key : String)
  | invalidValue (key : String)
  deriving DecidableEq, Repr

/-- The wording of a header error. -/
def HeaderError.message : HeaderError → String
  | .invalidKey k => s!"Invalid metadata (header) key '{k}': 'invalid gRPC metadata key name'"
  | .invalidValue k =>
    s!"Invalid metadata (header) value for key '{k}': 'failed to parse metadata value'"

/-- The headers of a request, in the order of their keys, no key twice. -/
abbrev Metadata := List (String × List UInt8)

namespace Metadata

/-- The characters of keys that are neither letters nor digits. -/
def keyMarks : List Char :=
  ['!', '#', '$', '%', '&', '\x27', '*', '+', '-', '.', '^', '_', '\x60', '|', '~']

/-- Whether a key may hold the character. -/
def isKeyChar (c : Char) : Bool := c.isAlphanum || keyMarks.contains c

/-- The most bytes of a key. -/
def maxKeyBytes : Nat := 65535

/-- The end of keys whose values are not text. -/
def binaryEnd : List Char := ['-', 'b', 'i', 'n']

/-- Whether the key may stand in front of a text. -/
def isKey (key : String) : Bool :=
  let cs := key.toList
  !cs.isEmpty && cs.length ≤ maxKeyBytes && cs.all isKeyChar &&
    !binaryEnd.isSuffixOf (cs.map Char.toLower)

/-- Whether the bytes may be a value: no control characters but tabs. -/
def isValue (bytes : List UInt8) : Bool :=
  bytes.all fun b => (32 ≤ b && b != 127) || b == 9

/-- The most entries of metadata. -/
def maxEntries : Nat := 24576

/-- Why headers do not come to metadata. -/
inductive Refusal where
  | header (e : HeaderError)
  /-- There is no room, and the program is broken off. -/
  | full
  deriving DecidableEq, Repr

/-- The metadata with an entry at its place, instead of an earlier one with the same key. -/
def place (key : String) (value : List UInt8) : Metadata → Metadata
  | [] => [(key, value)]
  | (k, v) :: rest =>
    if key < k then (key, value) :: (k, v) :: rest
    else if key = k then (key, value) :: rest
    else (k, v) :: place key value rest

/-- The metadata with one more entry. Room is made before the key is looked for, so there must be
some even if the key is there already. -/
def insert (key : String) (value : List UInt8) (m : Metadata) : Except Refusal Metadata :=
  if maxEntries ≤ m.length then .error .full else .ok (m.place key value)

/-- The value under a key. -/
def get? (m : Metadata) (key : String) : Option (List UInt8) :=
  (m.find? fun e => e.1 == key).map Prod.snd

/-- The metadata with one more header, or what is wrong with that header, its key first; a header
that is valid must find room. -/
def add (m : Metadata) (h : Header) : Except Refusal Metadata :=
  if !isKey h.key then .error (.header (.invalidKey h.key))
  else if !isValue (Text.utf8 h.value) then .error (.header (.invalidValue h.key))
  else m.insert h.key.toLower (Text.utf8 h.value)

/-- The metadata with more headers, or what is wrong with the first that cannot be added. -/
def addAll (m : Metadata) : List Header → Except Refusal Metadata
  | [] => .ok m
  | h :: hs =>
    match m.add h with
    | .error e => .error e
    | .ok m => m.addAll hs

/-- The metadata of headers. -/
def ofHeaders (hs : List Header) : Except Refusal Metadata := addAll [] hs

/-- The keys that belong to the protocol. -/
def reservedKeys : List String :=
  ["te", "content-type", "grpc-message", "grpc-message-type", "grpc-status"]

/-- What is sent of the metadata. -/
def sent (m : Metadata) : Metadata := m.filter fun e => !reservedKeys.contains e.1

/-- The keys under which the protocol adds entries to what is sent. They are not told of here, but
they take room. -/
def addedKeys : List String := ["te", "content-type"]

/-- What is sent for headers, or why nothing is. -/
def outgoing (hs : List Header) : Except Refusal Metadata :=
  match ofHeaders hs with
  | .error r => .error r
  | .ok m => if m.sent.length + addedKeys.length ≤ maxEntries then .ok m.sent else .error .full

end Metadata

end NamedQuery
