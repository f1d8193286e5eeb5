import NamedQuery.CommandLine.Basic

/-!
# Given arguments

The arguments that were found so far on one level of the command line: before the command, or behind
it. An option that carries one value is given at most once on a level; parameters and headers add
up.
-/

namespace NamedQuery.CommandLine

/-- The arguments found so far. -/
structure Given where
  url : Option String
  timeout : Option Nat
  connectTimeout : Option Nat
  verbosity : Nat
  params : List Value
  headers : List Header
  limit : Option Nat
  name : Option String
  lockArgs : Option (List UInt8)
  typeArgs : Option (List UInt8)
  source : Option (List UInt8)
  target : Option (List UInt8)
  amount : Option UInt64

namespace Given

/-- No arguments. -/
def empty : Given :=
  ⟨none, none, none, 0, [], [], none, none, none, none, none, none, none⟩

/-- The largest verbosity that is counted. -/
def maxVerbosity : Nat := 255

/-- One more request to be told more. -/
def tellMore (g : Given) : Given := { g with verbosity := min (g.verbosity + 1) maxVerbosity }

/-- The value of an argument that is read from a text, unless the argument was given before. -/
def once {α : Type} (argument : Argument) (earlier : Option α)
    (read : String → Except LiteralError α) (text : String) : Except UsageError (Option α) :=
  match earlier with
  | some _ => .error .repeated
  | none =>
    match read text with
    | .error e => .error (.invalidLiteral argument text e)
    | .ok a => .ok (some a)

/-- One more value of an argument that adds up. -/
def more {α : Type} (argument : Argument) (earlier : List α)
    (read : String → Except LiteralError α) (text : String) : Except UsageError (List α) :=
  match read text with
  | .error e => .error (.invalidLiteral argument text e)
  | .ok a => .ok (earlier ++ [a])

/-- The arguments with one more, given by its text. -/
def add (g : Given) (argument : Argument) (text : String) : Except UsageError Given :=
  match argument with
  | .url => (once argument g.url .ok text).map fun url => { g with url }
  | .timeout => (once argument g.timeout readSeconds text).map fun timeout => { g with timeout }
  | .connectTimeout =>
    (once argument g.connectTimeout readSeconds text).map fun connectTimeout =>
      { g with connectTimeout }
  | .param => (more argument g.params readParam text).map fun params => { g with params }
  | .header => (more argument g.headers readHeader text).map fun headers => { g with headers }
  | .limit => (once argument g.limit readCount text).map fun limit => { g with limit }
  | .name => (once argument g.name .ok text).map fun name => { g with name }
  | .lockArgs => (once argument g.lockArgs readBytes text).map fun lockArgs => { g with lockArgs }
  | .typeArgs => (once argument g.typeArgs readBytes text).map fun typeArgs => { g with typeArgs }
  | .source => (once argument g.source readBytes text).map fun source => { g with source }
  | .target => (once argument g.target readBytes text).map fun target => { g with target }
  | .amount =>
    (once argument g.amount (fun s => (readCount s).map UInt64.ofNat) text).map fun amount =>
      { g with amount }

/-- Whether nothing was given that may stand before a command. -/
def isEmpty (g : Given) : Bool :=
  g.url.isNone && g.timeout.isNone && g.connectTimeout.isNone && g.verbosity == 0

/-- The connection that is asked for before a command and behind it; what stands behind it counts.
-/
def config (before behind : Given) : Config where
  url := ((behind.url <|> before.url).getD defaultUrl)
  connectTimeout := behind.connectTimeout <|> before.connectTimeout
  timeout := behind.timeout <|> before.timeout

/-- The verbosity that is asked for before a command or behind it. -/
def verbosityOf (before behind : Given) : Nat :=
  if behind.verbosity = 0 then before.verbosity else behind.verbosity

/-- A required argument. -/
def required {α : Type} (o : Option α) : Except UsageError α :=
  match o with
  | none => .error .missingArgument
  | some a => .ok a

/-- The command with the arguments that were found behind it. -/
def command (g : Given) : CommandName → Except UsageError Command
  | .call => do return .call (← required g.name) g.params g.headers
  | .stream => do return .stream (← required g.name) g.params g.headers g.limit
  | .balance => do return .balance (← required g.lockArgs)
  | .tokenBalance => do
    let typeArgs ← required g.typeArgs
    let lockArgs ← required g.lockArgs
    return .tokenBalance typeArgs lockArgs
  | .transfer => do
    let typeArgs ← required g.typeArgs
    let source ← required g.source
    let target ← required g.target
    let amount ← required g.amount
    return .transfer typeArgs source target amount
  | .deposits => .ok (.deposits g.limit)

end Given

end NamedQuery.CommandLine
