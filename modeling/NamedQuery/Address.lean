/-!
# Addresses

References of the generic form for resources: with a scheme, an authority and a path, with an
authority alone, or with a path alone. The grammar is generous with the scheme and the query and
strict with the authority: brackets must be paired, at most one colon may follow the name of a host,
and percent signs belong only to what stands before an at sign or inside brackets. A client also
accepts a path in the file system behind `unix:`.
-/

namespace NamedQuery

/-- What an address says. -/
structure Address where
  isAbsolute : Bool
  authority : List Char
  /-- The path as it is written; empty if there is none. -/
  written : List Char
  deriving DecidableEq, Repr

namespace Address

/-- No reference is longer than this many bytes. -/
def maxBytes : Nat := 65534

/-! ## Schemes -/

/-- The longest scheme. -/
def maxSchemeLength : Nat := 64

/-- Whether a scheme may hold the character. -/
def isSchemeChar (c : Char) : Bool := c.isAlphanum || ['+', '-', '.', '~'].contains c

/-- What follows `start`, in whatever case, if `s` begins with it. -/
def afterCaseless? (start : String) (s : List Char) : Option (List Char) :=
  let start := start.toList
  if (s.take start.length).map Char.toLower = start then some (s.drop start.length) else none

/-- What stands before and after the mark of a scheme, if there is one. -/
def splitScheme? (s : List Char) : Option (List Char × List Char) :=
  match s.span isSchemeChar with
  | (scheme, ':' :: '/' :: '/' :: rest) => some (scheme, rest)
  | _ => none

/-- How an address begins. -/
inductive Start where
  | bare
  | scheme (rest : List Char)
  /-- There is something like a scheme, and it is too long. -/
  | tooLong

/-- How an address begins: with one of two well-known schemes, or with any other. -/
def start (s : List Char) : Start :=
  match afterCaseless? "http://" s with
  | some rest => .scheme rest
  | none =>
    match afterCaseless? "https://" s with
    | some rest => .scheme rest
    | none =>
      match splitScheme? s with
      | none => .bare
      | some (scheme, rest) => if maxSchemeLength < scheme.length then .tooLong else .scheme rest

/-! ## Authorities -/

/-- What is known of an authority while it is read. -/
structure Authority where
  /-- The colons since the last at sign or closing bracket. -/
  colons : Nat
  bracketOpened : Bool
  bracketClosed : Bool
  percent : Bool
  endsWithAt : Bool

namespace Authority

/-- Nothing is known yet. -/
def empty : Authority := ⟨0, false, false, false, false⟩

/-- The most colons in a row of groups. -/
def maxColons : Nat := 8

/-- The characters of an authority without a meaning of their own, letters and digits apart. -/
def plainMarks : List Char :=
  ['!', '$', '&', '\x27', '(', ')', '*', '+', ',', '-', '.', ';', '=', '_', '~']

/-- Whether the character has no meaning of its own in an authority. -/
def isPlain (c : Char) : Bool := c.isAlphanum || plainMarks.contains c

/-- What is known after one more character, if the character may stand here. -/
def push? (a : Authority) (c : Char) : Option Authority :=
  let a := { a with endsWithAt := false }
  if c = ':' then
    if maxColons ≤ a.colons then none else some { a with colons := a.colons + 1 }
  else if c = '[' then
    if a.percent || a.bracketOpened then none else some { a with bracketOpened := true }
  else if c = ']' then
    if !a.bracketOpened || a.bracketClosed then none
    else some { a with bracketClosed := true, colons := 0, percent := false }
  else if c = '@' then some { a with endsWithAt := true, colons := 0, percent := false }
  else if c = '%' then some { a with percent := true }
  else if isPlain c then some a
  else none

/-- Whether an authority may end here. -/
def isComplete (a : Authority) : Bool :=
  a.bracketOpened == a.bracketClosed && a.colons ≤ 1 && !a.endsWithAt && !a.percent

end Authority

/-- Whether the character ends an authority. -/
def endsAuthority (c : Char) : Bool := c == '/' || c == '?' || c == '#'

/-- Whether the characters are an authority, possibly an empty one. -/
def isAuthority (s : List Char) : Bool :=
  match s.foldlM Authority.push? .empty with
  | none => false
  | some a => a.isComplete

/-! ## Paths -/

/-- The characters that can be seen and may not stand in a query. -/
def forbidden : List Char := ['\x22', '#', '<', '>']

/-- Whether a query may hold the character. -/
def isQueryChar (c : Char) : Bool := '\x20' < c && c != '\x7F' && !forbidden.contains c

/-- Whether a path may hold the character: unlike a query it may hold double quotes, and neither
question marks nor grave accents. -/
def isPathChar (c : Char) : Bool :=
  c == '\x22' || (isQueryChar c && c != '?' && c != '\x60')

/-- Whether nothing but a fragment is left. -/
def isFragment : List Char → Bool
  | [] => true
  | c :: _ => c == '#'

/-- Whether nothing but a query and a fragment is left. -/
def isQueryAndFragment : List Char → Bool
  | '?' :: query => isFragment (query.dropWhile isQueryChar)
  | s => isFragment s

/-- Reads a path, a query and a fragment, of which each may be missing, and keeps the path. -/
def readPath? (s : List Char) : Option (List Char) :=
  let (path, rest) := s.span isPathChar
  if isQueryAndFragment rest then some path else none

/-! ## Addresses -/

/-- Reads a reference of the generic form. -/
def parse? (address : String) : Option Address :=
  let s := address.toList
  if s.isEmpty || maxBytes < address.utf8ByteSize then none
  else if s = ['*'] then some ⟨false, [], s⟩
  else if s.head? = some '/' then (readPath? s).map fun path => ⟨false, [], path⟩
  else
    match start s with
    | .tooLong => none
    | .bare => if isAuthority s then some ⟨false, s, []⟩ else none
    | .scheme rest =>
      let (authority, path) := rest.span fun c => !endsAuthority c
      if isAuthority authority && !authority.isEmpty then
        (readPath? path).map fun path => ⟨true, authority, path⟩
      else none

/-- The path; behind a scheme a path that is missing is the root. -/
def path (a : Address) : String :=
  if a.isAbsolute && a.written.isEmpty then "/" else String.ofList a.written

/-- The path of an address; empty if it is none. -/
def pathOf (address : String) : String :=
  match parse? address with
  | none => ""
  | some a => a.path

/-- Whether a client can try to reach the address. -/
def isValid (address : String) : Bool :=
  "unix:".toList.isPrefixOf address.toList || (parse? address).isSome

end Address

end NamedQuery
