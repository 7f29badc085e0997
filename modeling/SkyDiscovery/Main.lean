import SkyDiscovery.Service.CommandLine

/-!
# The command

Reads the settings file, carries out the command and prints its document.
-/

namespace SkyDiscovery

/-- The content of a file, if it can be read. -/
def readSettings (file : String) : IO (Option String) := do
  try
    return some (← IO.FS.readFile file)
  catch _ =>
    return none

/-- Prints what a command prints; the result is its status. -/
def finish (r : CommandResult) : IO UInt32 := do
  IO.print r.output
  return r.status.toUInt32

/-- Carries out the command with its arguments. -/
def runCommand (arguments : List String) : IO UInt32 := do
  match CommandLine.read? arguments with
  | none => finish CommandLine.unusable
  | some l => finish (l.run refuseConnection (← readSettings (l.config.getD "")))

end SkyDiscovery

def main (arguments : List String) : IO UInt32 :=
  SkyDiscovery.runCommand arguments
