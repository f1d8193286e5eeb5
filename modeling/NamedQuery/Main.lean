import NamedQuery.CommandLine.Run

/-!
# The program

The outer layer: words and surroundings in, text and exit code out. No service can be reached from
here, so every command ends at its connection.
-/

namespace NamedQuery

/-- Whether labels are coloured: as forced, else not if it is forbidden, else if someone can see it.
-/
def Palette.choose (force forbid wish : Option String) (seen : Bool) : Palette :=
  if force.any (· != "0") then .coloured
  else if forbid.isSome then .plain
  else if (wish.map (· != "0")).getD true && seen then .coloured
  else .plain

end NamedQuery

open NamedQuery in
/-- Runs a command line. -/
def main (words : List String) : IO UInt32 := do
  let seen ← (← IO.getStdout).isTty
  let force ← IO.getEnv "CLICOLOR_FORCE"
  let forbid ← IO.getEnv "NO_COLOR"
  let wish ← IO.getEnv "CLICOLOR"
  let outcome := CommandLine.run (Palette.choose force forbid wish seen) Network.silent words
  IO.print outcome.output
  IO.eprint outcome.errors
  return UInt32.ofNat outcome.exit
