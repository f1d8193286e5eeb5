import NamedQuery.CommandLine.Basic

/-!
# Levels of the command line

Which arguments may stand before a command, and which behind each command. Flags carry no value.
Some options are known on every level.
-/

namespace NamedQuery.CommandLine

/-- What a flag or an option stands for. -/
inductive Switch where
  | option (argument : Argument)
  | verbose
  | help
  | version
  deriving DecidableEq, Repr

/-- What may stand on one level of the command line. -/
structure Level where
  long : List (String × Switch)
  short : List (Char × Switch)
  /-- The arguments that are known by their place, in order. -/
  places : List Argument
  hasCommands : Bool

namespace Level

/-- The switch with a word. -/
def long? (l : Level) (word : String) : Option Switch := l.long.lookup word

/-- The switch with a letter. -/
def short? (l : Level) (letter : Char) : Option Switch := l.short.lookup letter

/-- The words known on every level. -/
def commonLong : List (String × Switch) :=
  [("url", .option .url), ("timeout", .option .timeout),
   ("connect-timeout", .option .connectTimeout), ("verbose", .verbose), ("help", .help)]

/-- The letters known on every level. -/
def commonShort : List (Char × Switch) := [('v', .verbose), ('h', .help)]

/-- The words and letters of the arguments of a query. -/
def queryLong : List (String × Switch) := [("param", .option .param), ("header", .option .header)]

/-- The letters of the arguments of a query. -/
def queryShort : List (Char × Switch) := [('p', .option .param), ('H', .option .header)]

/-- The word that sets a limit. -/
def limitLong : List (String × Switch) := [("limit", .option .limit)]

/-- What may stand before a command. -/
def root : Level where
  long := ("version", .version) :: commonLong
  short := ('V', .version) :: commonShort
  places := []
  hasCommands := true

/-- What may stand behind a command that knows only places. -/
def ofPlaces (places : List Argument) : Level := ⟨commonLong, commonShort, places, false⟩

/-- What may stand behind a command. -/
def ofCommand : CommandName → Level
  | .call => ⟨queryLong ++ commonLong, queryShort ++ commonShort, [.name], false⟩
  | .stream =>
    ⟨limitLong ++ queryLong ++ commonLong, queryShort ++ commonShort, [.name], false⟩
  | .balance => ofPlaces [.lockArgs]
  | .tokenBalance => ofPlaces [.typeArgs, .lockArgs]
  | .transfer => ofPlaces [.typeArgs, .source, .target, .amount]
  | .deposits => ⟨limitLong ++ commonLong, commonShort, [], false⟩

end Level

/-- The word that asks for help, in place of a command. -/
def helpWord : String := "help"

/-- Whether the word may stand in place of a command. -/
def isCommandWord (w : String) : Bool := w == helpWord || (CommandName.ofWord? w).isSome

end NamedQuery.CommandLine
