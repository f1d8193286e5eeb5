import NamedQuery.Client.Config
import NamedQuery.CommandLine.Literal

/-!
# The command line

What can be asked for on the command line, and what can be wrong with it.
-/

namespace NamedQuery.CommandLine

/-- What is to be done. -/
inductive Command where
  | call (name : String) (params : List Value) (headers : List Header)
  /-- Ask for a sequence of values, of which only so many are of interest. -/
  | stream (name : String) (params : List Value) (headers : List Header) (limit : Option Nat)
  | balance (lockArgs : List UInt8)
  | tokenBalance (typeArgs lockArgs : List UInt8)
  | transfer (typeArgs source target : List UInt8) (amount : UInt64)
  /-- Ask for the deposits, of which only so many are of interest. -/
  | deposits (limit : Option Nat)

/-- A complete command line. -/
structure Invocation where
  config : Config
  verbosity : Nat
  command : Command

/-- The names of commands. -/
inductive CommandName where
  | call
  | stream
  | balance
  | tokenBalance
  | transfer
  | deposits
  deriving DecidableEq, Repr

namespace CommandName

/-- The word for a command. -/
def word : CommandName → String
  | call => "call"
  | stream => "stream"
  | balance => "balance"
  | tokenBalance => "udt-balance"
  | transfer => "transfer"
  | deposits => "deposits"

/-- All commands. -/
def all : List CommandName := [call, stream, balance, tokenBalance, transfer, deposits]

/-- The command with a word. -/
def ofWord? (w : String) : Option CommandName := all.find? fun c => c.word == w

end CommandName

/-- The arguments that carry a value: options, and the words that stand at a place of their own. -/
inductive Argument where
  | url
  | timeout
  | connectTimeout
  | param
  | header
  | limit
  | name
  | lockArgs
  | typeArgs
  | source
  | target
  | amount
  deriving DecidableEq, Repr

/-- How an argument is shown to people. -/
def Argument.label : Argument → String
  | .url => "--url <URL>"
  | .timeout => "--timeout <TIMEOUT>"
  | .connectTimeout => "--connect-timeout <CONNECT_TIMEOUT>"
  | .param => "--param <PARAMS>"
  | .header => "--header <HEADERS>"
  | .limit => "--limit <LIMIT>"
  | .name => "<NAME>"
  | .lockArgs => "<LOCK_ARGS>"
  | .typeArgs => "<TYPE_ARGS>"
  | .source => "<FROM>"
  | .target => "<TO>"
  | .amount => "<AMOUNT>"

/-- Why a command line asks for nothing that can be done. -/
inductive UsageError where
  | invalidLiteral (argument : Argument) (text : String) (e : LiteralError)
  | unknownArgument
  | unknownCommand
  | missingArgument
  | missingValue
  | unexpectedValue
  | repeated
  | missingCommand
  | nothingGiven
  | help
  | version
  deriving DecidableEq, Repr

end NamedQuery.CommandLine
