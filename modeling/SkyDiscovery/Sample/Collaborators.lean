import SkyDiscovery.Cutout.Program
import SkyDiscovery.Engine.Event

/-!
# Sample collaborators

A catalog in memory, a locator over a table of files, cutout tasks with prepared answers, and
programs that follow a script.
-/

namespace SkyDiscovery.Sample

/-- A catalog with the same rows for every query. -/
def catalogOf (items : List CursorItem) : Catalog where
  openSession := .ok ()
  execute _ := .ok items

/-- A catalog that fails at every query. -/
def failingCatalog (reason : String) : Catalog where
  openSession := .ok ()
  execute _ := .error (.catalog reason)

/-- A catalog that opens no session. -/
def closedCatalog (reason : String) : Catalog where
  openSession := .error (.catalog reason)
  execute _ := .error (.catalog reason)

/-- Files under the keys of their datasets. -/
def locatorOf (files : Dictionary String) (publisherId : String) :
    Except Failure (Option String) :=
  .ok (files.get? (CatalogQuery.datasetKey publisherId))

/-- A locator that always fails. -/
def failingLocator (_ : String) : Except Failure (Option String) :=
  .error (.catalog "locator unavailable")

/-! ## Cutout tasks -/

/-- The prepared answer of a cutout task. -/
inductive Answer where
  | keywords (k : Keywords)
  | nothing
  | failure (reason : String)

/-- A cutout task that answers by the path of the file. -/
structure PreparedTask where
  /-- The answer for the files that have none of their own. -/
  default : Answer
  byPath : Dictionary Answer := ∅

namespace PreparedTask

/-- The task that answers every file with some keywords. -/
def returning (keywords : List (String × String)) : PreparedTask where
  default := .keywords (.ofList keywords)

def withAnswer (t : PreparedTask) (path : String) (a : Answer) : PreparedTask :=
  { t with byPath := t.byPath.insert path a }

def compute (t : PreparedTask) (path : String) (_ : CutoutRequest) :
    Except Failure (Option Keywords) :=
  match (t.byPath.get? path).getD t.default with
  | .keywords k => .ok (some k)
  | .nothing => .ok none
  | .failure reason => .error (.cutout reason)

end PreparedTask

/-! ## Programs -/

/-- How a program ends. -/
inductive Ending where
  | exit (code : Nat)
  | signal (number : Nat) (name : String)
  /-- There is no such program. -/
  | missing

/-- A program that prints prepared texts. -/
structure ScriptedProgram where
  /-- Whether it first prints its arguments, one to a line. -/
  echo : Bool
  output : List UInt8
  errors : List UInt8
  ending : Ending

namespace ScriptedProgram

/-- The lines `argN = argument`; `n` counts the arguments before. -/
def echoed (n : Nat) : List String → List Char
  | [] => []
  | a :: as =>
    "arg".toList ++ Text.digits (n + 1) ++ " = ".toList ++ a.toList ++ '\n' :: echoed (n + 1) as

def run (p : ScriptedProgram) (arguments : List String) : RunOutcome :=
  let lines := if p.echo then Text.bytes (echoed 0 arguments) else []
  match p.ending with
  | .exit code => .exited (code % 256) (lines ++ p.output) p.errors
  | .signal number name => .killed number name p.errors
  | .missing => .notStarted "No such file or directory (os error 2)"

end ScriptedProgram

end SkyDiscovery.Sample
