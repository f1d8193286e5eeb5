import NamedQuery.CommandLine.Parser
import NamedQuery.Report

/-!
# Running a command

What a command line prints and how it exits. Results go to the output and errors to the error
output; the exit code is 0 for success, 1 for an error and 2 for a command line that asks for
nothing that can be done. Of a stream, elements are printed as they come, also if an error follows;
when as many as asked for have come, nothing more is taken from the stream.
-/

namespace NamedQuery

namespace Cursor

/-- What is printed of a stream, and the error that ended it: elements are read one by one until as
many as asked for have come, until the end, or until the first error. -/
def collect {ε α : Type} (limit : Option Nat) (read : Value → Except ε α) (failed : Status → ε)
    (c : Cursor) : List α × Option ε :=
  if limit.any (· ≤ c.received) then ([], none)
  else
    match h : c.next with
    | (.finished, _) => ([], none)
    | (.failed s, _) => ([], some (failed s))
    | (.item v, c') =>
      match read v with
      | .error e => ([], some e)
      | .ok a =>
        have := pending_next_lt h
        let rest := collect limit read failed c'
        (a :: rest.1, rest.2)
termination_by c.pending

end Cursor

namespace CommandLine

/-- What a program leaves behind. -/
structure Outcome where
  exit : Nat
  output : String
  errors : String
  service : Option Script

/-- The name and the version of the program. -/
def versionLine : String := "animagus 0.1.0"

/-- How the program is used. -/
def helpText : String :=
  "Client for Animagus generic query services\n\n" ++
  "Usage: animagus [OPTIONS] <COMMAND>\n\n" ++
  "Commands: " ++ String.intercalate ", " (CommandName.all.map CommandName.word) ++ ", help\n"

/-- A line. -/
def line (s : String) : String := s ++ "\n"

/-- A success. -/
def Outcome.success (output : String) : Outcome := ⟨0, output, "", none⟩

/-- A failure, after something may have been printed. -/
def Outcome.failure (output error : String) : Outcome := ⟨1, output, line error, none⟩

/-- The outcome of a command line that asks for nothing that can be done. -/
def UsageError.outcome : UsageError → Outcome
  | .version => .success (line versionLine)
  | .help => .success helpText
  | .nothingGiven => ⟨2, "", helpText, none⟩
  | .invalidLiteral argument text e =>
    ⟨2, "", line s!"error: invalid value '{text}' for '{argument.label}': {e.message}", none⟩
  | .unknownArgument => ⟨2, "", line "error: unexpected argument found", none⟩
  | .unknownCommand => ⟨2, "", line "error: unrecognized subcommand", none⟩
  | .missingArgument => ⟨2, "", line "error: a required argument was not provided", none⟩
  | .missingValue => ⟨2, "", line "error: a value is required for an option", none⟩
  | .unexpectedValue => ⟨2, "", line "error: unexpected value found for a flag", none⟩
  | .repeated => ⟨2, "", line "error: an option cannot be used multiple times", none⟩
  | .missingCommand => ⟨2, "", line "error: a subcommand is required but not provided", none⟩

/-- The outcome of one result, or of an error. -/
def outcomeOf {ε α : Type} (failed : ε → String) (shown : α → String) :
    Except ε α × Script → Outcome
  | (.error e, service) => { Outcome.failure "" (failed e) with service := some service }
  | (.ok a, service) => { Outcome.success (line (shown a)) with service := some service }

/-- The outcome of a sequence of results, and of the error behind it. -/
def outcomeOfAll {ε α : Type} (failed : ε → String) (shown : α → String) :
    List α × Option ε → Outcome
  | (as, error) =>
    let output := String.join (as.map fun a => line (shown a))
    match error with
    | none => .success output
    | some e => .failure output (failed e)

/-- The outcome of a stream of values. -/
def streamOutcome (p : Palette) (limit : Option Nat) (c : Cursor) : Outcome :=
  outcomeOfAll (Report.transportError p) Report.value (c.collect limit .ok .status)

/-- The outcome of a stream of deposits. -/
def depositsOutcome (p : Palette) (limit : Option Nat) (c : Cursor) : Outcome :=
  let failed (e : QueryError) : String := Report.titled p "Deposit stream failed" e.message
  outcomeOfAll failed Report.deposit
    (c.collect limit (fun v => (Deposit.ofValue v).mapError .value)
      fun s => .call (.transport (.status s)))

/-- The outcome of a command, from a client and the service that it talks to. -/
def perform (p : Palette) (c : Client) (service : Script) : Command → Outcome
  | .call name params headers =>
    outcomeOf (Report.callError p) Report.value (c.call service ⟨name, params, headers⟩)
  | .stream name params headers limit =>
    match c.openStream service ⟨name, params, headers⟩ with
    | (.error e, service) =>
      { Outcome.failure "" (Report.callError p e) with service := some service }
    | (.ok cursor, service) => { streamOutcome p limit cursor with service := some service }
  | .balance lockArgs =>
    outcomeOf (Report.queryError p) (Report.capacity p) (c.balance service lockArgs)
  | .tokenBalance typeArgs lockArgs =>
    outcomeOf (Report.queryError p) (Report.tokenAmount p)
      (c.tokenBalance service typeArgs lockArgs)
  | .transfer typeArgs source target amount =>
    outcomeOf (Report.queryError p) Report.document
      (c.transfer service typeArgs source target amount)
  | .deposits limit =>
    match c.openDeposits service with
    | (.error e, service) =>
      { Outcome.failure "" (Report.queryError p e) with service := some service }
    | (.ok cursor, service) => { depositsOutcome p limit cursor with service := some service }

/-- The outcome of a command line. -/
def run (p : Palette) (network : Network) (words : List String) : Outcome :=
  match parse words with
  | .error e => e.outcome
  | .ok i =>
    match i.config.connect network with
    | .error e => .failure "" (Report.connectError p e)
    | .ok (client, service) => perform p client service i.command

end CommandLine

end NamedQuery
