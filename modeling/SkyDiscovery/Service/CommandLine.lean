import SkyDiscovery.Service.ConfigReader
import SkyDiscovery.Service.Document
import SkyDiscovery.Service.Request

/-!
# The command line

    --config FILE [OPTIONS] [KEY=VALUE]…

Options may stand anywhere before `--` and at most once each; everything else is a parameter of the
request.  Arguments or settings that cannot be used end the command with status 2, and a failed
request ends it with status 1 after its document is printed.
-/

namespace SkyDiscovery

structure CommandLine where
  /-- The file of the settings. -/
  config : Option String := none
  databaseUrl : Option String := none
  protocol : Option String := none
  logLevel : Option String := none
  /-- Whether the document is indented. -/
  indented : Bool := false
  /-- The parameters of the request, the last one first. -/
  parameters : List (String × String) := []

namespace CommandLine

/-- The options that take a value. -/
inductive Setting where
  | config
  | databaseUrl
  | protocol
  | logLevel
  deriving DecidableEq

namespace Setting

/-- The option of a name after two hyphens. -/
def ofName? (name : String) : Option Setting :=
  [("config", config), ("database-url", databaseUrl), ("protocol", protocol),
    ("log-level", logLevel)].lookup name

/-- The option of a letter after one hyphen. -/
def ofLetter? (letter : Char) : Option Setting :=
  [('c', config), ('p', protocol)].lookup letter

end Setting

/-- Gives an option its value, unless it already has one. -/
def assign (l : CommandLine) (s : Setting) (value : String) : Option CommandLine :=
  let unset (old : Option String) (new : CommandLine) := if old.isSome then none else some new
  match s with
  | .config => unset l.config { l with config := some value }
  | .databaseUrl => unset l.databaseUrl { l with databaseUrl := some value }
  | .protocol => unset l.protocol { l with protocol := some value }
  | .logLevel => unset l.logLevel { l with logLevel := some value }

/-- Adds a parameter of the request. -/
def addParameter (l : CommandLine) (argument : String) : Option CommandLine :=
  match readArgument argument with
  | .ok pair => some { l with parameters := pair :: l.parameters }
  | .error _ => none

/-- One argument by its form. -/
inductive Token where
  /-- Two hyphens alone: no options follow. -/
  | divider
  | indent
  /-- An option with its value, or with none in the same argument. -/
  | option (s : Setting) (value : Option String)
  | parameter (argument : String)
  | unknown

namespace Token

/-- An argument after two hyphens. -/
def ofLong (cs : List Char) : Token :=
  let name := Text.before '=' cs
  let value := (Text.cut '=' cs).map fun (_, v) => String.ofList v
  match Setting.ofName? (String.ofList name), value with
  | some s, value => option s value
  | none, none => if name = "pretty".toList then indent else unknown
  | none, some _ => unknown

/-- An argument after one hyphen; its value may follow the letter with or without an equals
sign. -/
def ofShort (letter : Char) (cs : List Char) : Token :=
  match Setting.ofLetter? letter with
  | none => unknown
  | some s =>
    match cs with
    | [] => option s none
    | '=' :: value => option s (some (String.ofList value))
    | value => option s (some (String.ofList value))

def ofArgument (argument : String) : Token :=
  match argument.toList with
  | ['-', '-'] => divider
  | '-' :: '-' :: cs => ofLong cs
  | '-' :: letter :: cs => ofShort letter cs
  | _ => parameter argument

end Token

/-- Reads arguments of which none is an option. -/
def readParameters (l : CommandLine) (arguments : List String) : Option CommandLine :=
  arguments.foldlM addParameter l

/-- Reads arguments into a command line; `awaiting` is the option whose value comes next. -/
def readFrom (l : CommandLine) (awaiting : Option Setting) : List String → Option CommandLine
  | [] => if awaiting.isSome then none else some l
  | a :: rest =>
    match awaiting, Token.ofArgument a with
    | some s, .parameter value => do readFrom (← l.assign s value) none rest
    | some _, _ => none
    | none, .divider => l.readParameters rest
    | none, .indent =>
      if l.indented then none else readFrom { l with indented := true } none rest
    | none, .option s (some value) => do readFrom (← l.assign s value) none rest
    | none, .option s none => readFrom l (some s) rest
    | none, .parameter argument => do readFrom (← l.addParameter argument) none rest
    | none, .unknown => none

/-- Reads the arguments of the command. -/
def read? (arguments : List String) : Option CommandLine :=
  (readFrom {} none arguments).filter fun l => l.config.isSome

/-- The parameters of the request in their order. -/
def pairs (l : CommandLine) : List (String × String) :=
  l.parameters.reverse

end CommandLine

/-! ## The command -/

/-- What the command prints and the status that it ends with. -/
structure CommandResult where
  status : Nat
  output : String
  deriving DecidableEq, Repr

namespace CommandLine

/-- The end of a command that cannot be carried out. -/
def unusable : CommandResult := ⟨2, ""⟩

/-- The end of a request. -/
def conclude (l : CommandLine) (outcome : Except Failure Response) : CommandResult :=
  let status := match outcome with
    | .ok _ => 0
    | .error _ => 1
  ⟨status, (outcomeDocument outcome).render l.indented ++ "\n"⟩

/-- Carries out the command under settings. -/
def answer (l : CommandLine) (connect : Connector) (c : ServiceConfig) :
    Logged (Except Failure Response) :=
  match c.protocolFor l.protocol with
  | .error f => return .error f
  | .ok p => c.answer connect p l.pairs l.databaseUrl

/-- Carries out the command with the content of its settings file, if it can be read. -/
def run (l : CommandLine) (connect : Connector) (content : Option String) : CommandResult :=
  match content.bind ServiceConfig.read? with
  | none => unusable
  | some c => l.conclude (l.answer connect c).value

end CommandLine

end SkyDiscovery
