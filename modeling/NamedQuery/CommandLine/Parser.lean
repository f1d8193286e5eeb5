import NamedQuery.CommandLine.Given
import NamedQuery.CommandLine.Grammar

/-!
# Reading the command line

Words are read from left to right, first those before the command and then those behind it. A value
that stands in the same word as its option is checked at once. A value that stands in a word of its
own is checked when the next argument has been recognised, or at the end of its level; an argument
that is not recognised is reported first.
-/

namespace NamedQuery.CommandLine

/-- An argument whose value has not been checked yet; an option may still wait for its value. -/
structure Pending where
  argument : Argument
  text : Option String

/-- What was read of one level so far. -/
structure State where
  given : Given
  pending : Option Pending
  places : List Argument
  valuesOnly : Bool

namespace State

/-- Nothing was read of a level. -/
def start (l : Level) : State := ⟨.empty, none, l.places, false⟩

/-- Checks the argument that comes next to be checked. -/
def settle (s : State) : Except UsageError State :=
  match s.pending with
  | none => .ok s
  | some ⟨_, none⟩ => .error .missingValue
  | some ⟨argument, some text⟩ =>
    (s.given.add argument text).map fun given => { s with given, pending := none }

/-- Whether an option waits for its value. -/
def isWaiting (s : State) : Bool :=
  match s.pending with
  | some ⟨_, none⟩ => true
  | _ => false

/-- An argument that was recognised, with its value if that is known. -/
def expect (s : State) (argument : Argument) (text : Option String) : Except UsageError State :=
  s.settle.map fun s => { s with pending := some ⟨argument, text⟩ }

/-- An argument with a value that is checked at once. -/
def check (s : State) (argument : Argument) (text : String) : Except UsageError State := do
  let s ← s.settle
  let given ← s.given.add argument text
  return { s with given }

/-- A flag. -/
def flag (s : State) (f : State → Except UsageError State) : Except UsageError State := do
  let s ← s.settle
  f s

/-- A switch, with a value that stands in the same word. -/
def switchOn (s : State) (sw : Switch) (value : Option String) : Except UsageError State :=
  match sw, value with
  | .option argument, some text => s.check argument text
  | .option argument, none => s.expect argument none
  | _, some _ => .error .unexpectedValue
  | .verbose, none => s.flag fun s => .ok { s with given := s.given.tellMore }
  | .help, none => s.flag fun _ => .error .help
  | .version, none => s.flag fun _ => .error .version

/-- The switches in a word of letters; the first option takes the rest of the word as its value. -/
def letters (l : Level) (s : State) : List Char → Except UsageError State
  | [] => .ok s
  | c :: cs =>
    match l.short? c with
    | none => .error .unknownArgument
    | some (.option argument) =>
      match cs with
      | [] => s.expect argument none
      | '=' :: cs => s.check argument (String.ofList cs)
      | cs => s.check argument (String.ofList cs)
    | some sw => do
      let s ← s.switchOn sw none
      letters l s cs

/-- A word that is no switch: the value that an option waits for, or the argument of the next place.
-/
def value (l : Level) (s : State) (w : String) : Except UsageError State :=
  match s.places with
  | [] =>
    .error (if l.hasCommands && !(s.valuesOnly && isCommandWord w) then .unknownCommand
      else .unknownArgument)
  | argument :: places => (s.expect argument (some w)).map fun s => { s with places }

end State

/-- The forms of words. -/
inductive Word where
  | separator
  /-- A switch with a word of its own, and what stands behind an equals sign. -/
  | long (name : String) (value : Option String)
  | short (letters : List Char)
  | plain

/-- The form of a word. -/
def Word.of (w : String) : Word :=
  match w.toList with
  | ['-', '-'] => .separator
  | '-' :: '-' :: rest =>
    match rest.span (· != '=') with
    | (name, []) => .long (String.ofList name) none
    | (name, _ :: value) => .long (String.ofList name) (some (String.ofList value))
  | '-' :: c :: cs => .short (c :: cs)
  | _ => .plain

namespace State

/-- One more word that is no command. -/
def word (l : Level) (s : State) (w : String) : Except UsageError State :=
  if s.valuesOnly then s.value l w
  else
    match Word.of w with
    | .separator => .ok { s with valuesOnly := true }
    | .long name value =>
      match l.long? name with
      | none => .error .unknownArgument
      | some sw => s.switchOn sw value
    | .short letters => s.letters l letters
    | .plain =>
      match s.pending with
      | some ⟨argument, none⟩ => .ok { s with pending := some ⟨argument, some w⟩ }
      | _ => s.value l w

end State

/-- What comes of asking for help with further words. -/
def helpWith : List String → UsageError
  | [] => .help
  | [w] => if isCommandWord w then .help else .unknownCommand
  | _ :: _ :: _ => .unknownCommand

/-- Reads the words of a level, up to a command: what was read, the command, and the words behind
it. -/
def readLevel (l : Level) (s : State) :
    List String → Except UsageError (State × Option (CommandName × List String))
  | [] => .ok (s, none)
  | w :: ws =>
    if l.hasCommands && !s.valuesOnly && !s.isWaiting && isCommandWord w then
      match CommandName.ofWord? w with
      | some c => .ok (s, some (c, ws))
      | none => .error (helpWith ws)
    else
      match s.word l w with
      | .error e => .error e
      | .ok s => readLevel l s ws

/-- Reads the words behind a command. -/
def readCommand (c : CommandName) (words : List String) : Except UsageError (Given × Command) := do
  let level := Level.ofCommand c
  let (s, _) ← readLevel level (.start level) words
  let s ← s.settle
  let command ← s.given.command c
  return (s.given, command)

/-- Reads a command line. What stands before the command is checked to its end only after all that
stands behind it. -/
def parse (words : List String) : Except UsageError Invocation := do
  let (s, found) ← readLevel .root (.start .root) words
  match found with
  | none =>
    let s ← s.settle
    .error (if s.given.isEmpty then .nothingGiven else .missingCommand)
  | some (c, rest) =>
    let (behind, command) ← readCommand c rest
    let s ← s.settle
    return ⟨Given.config s.given behind, Given.verbosityOf s.given behind, command⟩

end NamedQuery.CommandLine
