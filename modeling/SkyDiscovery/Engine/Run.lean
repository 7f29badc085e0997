import SkyDiscovery.Engine.Expansion
import SkyDiscovery.Engine.Response
import SkyDiscovery.Query.Refinement

/-!
# Runs

A run compiles the query of a request, asks the catalog, and refines and expands the rows into a
response.  It stops reading at the first failure and when the record limit is reached.  A session
that was opened is closed whatever happens.
-/

namespace SkyDiscovery

structure Engine where
  protocol : Protocol
  context : Context
  table : TableMapping
  /-- Virtual records are made only with a cutout service. -/
  cutouts : Option CutoutService

namespace Engine

/-- An engine under a context and its table. -/
def make (p : Protocol) (c : Context) : Engine :=
  ⟨p, c, c.table.mapping, none⟩

def withTable (g : Engine) (t : TableMapping) : Engine :=
  { g with table := t }

def withCutouts (g : Engine) (s : CutoutService) : Engine :=
  { g with cutouts := some s }

/-- The query of a request, after the context is checked. -/
def compile (g : Engine) (s : ParameterSet) : Except Failure CatalogQuery := do
  g.context.validate g.protocol
  CatalogQuery.compile g.protocol g.table g.context s

/-- The verbosity of a request: what the client asks for, or else that of the context. -/
def verbosity (g : Engine) (s : ParameterSet) : Except Failure (Option Nat) :=
  match s.integer? "VERB" with
  | none => .ok g.context.verbosity
  | some v =>
    if v < 0 then .error (.invalid "VERB" "must not be negative")
    else .ok (some (min v.toNat 0xFFFF_FFFF))

/-- The fields of the response. -/
def directory (g : Engine) (s : ParameterSet) : Except Failure FieldDirectory := do
  return FieldDirectory.build g.protocol g.table (← g.verbosity s)

/-! ## Rows into records -/

/-- What the rows of a run go through. -/
structure Pipeline where
  table : TableMapping
  region : Option (Region Float)
  expander : Expander
  synthesizer : Synthesizer
  editor : Option Editor

/-- How far a run has come. -/
structure Progress where
  output : Output
  scanned : Nat
  matched : Nat
  discarded : Nat

namespace Pipeline

/-- Whether a row lies in the region of the search. -/
def admits (l : Pipeline) (row : Row) : Bool :=
  match l.region with
  | none => true
  | some r => r.acceptsRow l.table row

/-- Takes up rows until they end, a failure occurs or the limit is reached; tells whether it was
the limit. -/
def takeRows (l : Pipeline) :
    List CursorItem → Progress → Logged (Except Failure (Progress × Bool))
  | [], p => return .ok (p, false)
  | item :: rest, p => do
    Logged.log .read
    match item with
    | .error f => return .error f
    | .ok row =>
      let p := { p with scanned := p.scanned + 1 }
      if l.admits row then
        let (output, result) ← l.expander.expand l.synthesizer l.editor row p.output
        let p := { p with output := output, matched := p.matched + 1 }
        match result with
        | .ok done => l.takeRows rest { p with discarded := p.discarded + done.discarded }
        | .error (.recordLimit _) => return .ok (p, true)
        | .error f => return .error f
      else l.takeRows rest p

end Pipeline

def pipeline (g : Engine) (q : CatalogQuery) (s : ParameterSet) (d : FieldDirectory) : Pipeline where
  table := g.table
  region := q.region
  expander := .make g.protocol g.table s
  synthesizer := .make g.protocol g.context g.table d (s.text? "RUNID")
  editor := g.cutouts.map fun service => ⟨service, .ofQuery q⟩

/-- The response of the records collected. -/
def respond (g : Engine) (q : CatalogQuery) (d : FieldDirectory) (p : Progress) (overflow : Bool) :
    Response where
  protocol := g.protocol
  directory := d
  records := p.output.sink.records
  overflow := overflow
  query := q.text
  stats := ⟨p.scanned, p.matched, p.output.sink.size, p.discarded⟩

/-- Refines and expands the rows of a query.  A query for no records leaves the rows unread. -/
def process (g : Engine) (q : CatalogQuery) (s : ParameterSet) (d : FieldDirectory)
    (rows : List CursorItem) : Logged (Except Failure Response) := do
  let start : Progress := ⟨⟨.empty q.recordCap, 0⟩, 0, 0, 0⟩
  let items := if q.isMetadataOnly then [] else rows
  match ← (g.pipeline q s d).takeRows items start with
  | .error f => return .error f
  | .ok (p, overflow) => return .ok (g.respond q d p overflow)

/-! ## Runs against a catalog -/

/-- Puts a compiled query to the catalog. -/
def execute (g : Engine) (q : CatalogQuery) (s : ParameterSet) (d : FieldDirectory)
    (catalog : Catalog) : Logged (Except Failure Response) := do
  Logged.log .opened
  match catalog.openSession with
  | .error f => return .error f
  | .ok _ =>
    Logged.log (.executed q.text)
    let result ←
      match catalog.execute q.text with
      | .error f => Logged.pure (.error f)
      | .ok rows => g.process q s d rows
    Logged.log .closed
    return result

/-- Answers a request from a catalog. -/
def run (g : Engine) (s : ParameterSet) (catalog : Catalog) : Logged (Except Failure Response) :=
  match g.compile s with
  | .error f => return .error f
  | .ok q =>
    match g.directory s with
    | .error f => return .error f
    | .ok d => g.execute q s d catalog

end Engine

end SkyDiscovery
