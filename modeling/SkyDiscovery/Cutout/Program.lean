import SkyDiscovery.Cutout.Keywords
import SkyDiscovery.Cutout.Request
import SkyDiscovery.Text.FormEncoding

/-!
# Cutout programs

A cutout may be computed by a program, which prints its keywords.  How a run of the program ends
decides what comes of the cutout; without a metadata file there is none.
-/

namespace SkyDiscovery

structure CutoutProgram where
  program : String
  /-- The directory into which the program writes its files. -/
  stagingDir : Option String

/-- The end of a run of a program. -/
inductive RunOutcome where
  /-- The program could not be started. -/
  | notStarted (reason : String)
  | exited (code : Nat) (output errors : List UInt8)
  /-- The program was ended by a signal with a number and a name. -/
  | killed (signal : Nat) (name : String) (errors : List UInt8)

namespace CutoutProgram

def arguments (p : CutoutProgram) (path : String) (r : CutoutRequest) : List String :=
  r.arguments p.stagingDir path

/-- Why the program cannot be started with some arguments, if it cannot.  No text may hold the
character that ends it, and no argument may have 131072 bytes. -/
def refusal? (p : CutoutProgram) (arguments : List String) : Option String :=
  if (p.program :: arguments).any fun s => s.contains '\x00' then
    some "nul byte found in provided data"
  else if arguments.any fun s => 131072 ≤ s.utf8ByteSize then
    some "Argument list too long (os error 7)"
  else none

/-- The failure of a run that ended in a state with the given errors. -/
def ended (p : CutoutProgram) (state : String) (errors : List UInt8) : Failure :=
  .cutout (p.program ++ " exited with " ++ state ++ ": " ++
    String.ofList (Text.trim (Text.ofBytes errors)))

/-- What comes of a run. -/
def result (p : CutoutProgram) : RunOutcome → Except Failure (Option Keywords)
  | .notStarted reason => .error (.cutout ("cannot run " ++ p.program ++ ": " ++ reason))
  | .exited 0 output _ =>
    let keywords := Keywords.read (Text.ofBytes output)
    .ok (if keywords.contains Keywords.metadataFile then some keywords else none)
  | .exited code _ errors =>
    .error (p.ended ("exit status: " ++ String.ofList (Text.digits code)) errors)
  | .killed signal name errors =>
    .error (p.ended
      ("signal: " ++ String.ofList (Text.digits signal) ++ " (" ++ name ++ ")") errors)

/-- What comes of the program for a file, where `start` runs it with its arguments. -/
def compute (p : CutoutProgram) (start : List String → RunOutcome) (path : String)
    (r : CutoutRequest) : Except Failure (Option Keywords) :=
  let arguments := p.arguments path r
  p.result (((p.refusal? arguments).map .notStarted).getD (start arguments))

end CutoutProgram

end SkyDiscovery
