import SkyDiscovery.Cutout.Editor
import SkyDiscovery.Engine.Sink
import SkyDiscovery.Record.Synthesis

/-!
# Expansion of rows

Each row becomes the records of its variants.  The variants of a row with more than one share an
association identifier, which is drawn before any of them is made.  A sink without room ends the
expansion before the next record is made, so no cutout is computed in vain.
-/

namespace SkyDiscovery

/-- What the rows of one request are expanded by. -/
structure Expander where
  protocol : Protocol
  table : TableMapping
  formats : FormatSelection
  modes : ModeSelection

/-- The records that came of a row and those that were discarded. -/
structure Expansion where
  emitted : Nat
  discarded : Nat
  deriving DecidableEq, Repr

/-- The sink of a response and the number of associations drawn so far. -/
structure Output where
  sink : Sink
  associations : Nat

namespace Expander

def make (p : Protocol) (t : TableMapping) (s : ParameterSet) : Expander :=
  ⟨p, t, .ofParameter (s.text? "FORMAT"), .ofParameter (s.text? "MODE")⟩

/-- The variants that a row yields. -/
def variants (x : Expander) (row : Row) : List Variant :=
  Variant.select x.protocol x.formats x.modes ((row.text? (x.table.column "access_format")).getD "")

/-- The association of a row with `count` variants, and the number drawn after it. -/
def associate (drawn count : Nat) : Nat × Option String :=
  if count < 2 then (drawn, none)
  else (drawn + 1, some ("MultiFormat." ++ String.ofList (Text.digits (drawn + 1))))

/-- Gives a record the association of its row. -/
def withAssociation (d : FieldDirectory) (association : Option String) (r : Record) : Record :=
  let r := { r with association := association }
  match association with
  | some id => if d.contains "assoc_id" then r.set "assoc_id" (.text id) else r
  | none => r

/-- Makes a virtual record describe its cutout; without an editor it is discarded. -/
def complete (d : FieldDirectory) (editor : Option Editor) (v : Variant) (r : Record)
    (publisherId : Option String) : Logged (Except Failure (Option Record)) :=
  if v.product = .virtual then
    match editor, publisherId with
    | some e, some id => do
      let (r, outcome) ← e.edit d r id
      match outcome with
      | .error f => return .error f
      | .ok (.discarded _) => return .ok none
      | .ok .applied => return .ok (some r)
    | _, _ => return .ok none
  else return .ok (some r)

/-- The record of one variant of a row, unless it is discarded. -/
def recordOf (z : Synthesizer) (editor : Option Editor) (association : Option String) (row : Row)
    (v : Variant) : Logged (Except Failure (Option Record)) :=
  match z.synthesize row v with
  | .error f => return .error f
  | .ok made =>
    complete z.directory editor v (withAssociation z.directory association made.record)
      made.publisherId

/-- Emits the records of variants one after the other; `done` counts those before. -/
def emit (z : Synthesizer) (editor : Option Editor) (association : Option String) (row : Row) :
    List Variant → Sink → Expansion → Logged (Sink × Except Failure Expansion)
  | [], sink, done => return (sink, .ok done)
  | v :: vs, sink, done =>
    match sink.ensureRoom with
    | .error f => return (sink, .error f)
    | .ok _ => do
      match ← recordOf z editor association row v with
      | .error f => return (sink, .error f)
      | .ok none => emit z editor association row vs sink { done with discarded := done.discarded + 1 }
      | .ok (some r) =>
        match sink.push r with
        | .error f => return (sink, .error f)
        | .ok sink =>
          emit z editor association row vs sink { done with emitted := done.emitted + 1 }

/-- Emits the records of a row. -/
def expand (x : Expander) (z : Synthesizer) (editor : Option Editor) (row : Row) (out : Output) :
    Logged (Output × Except Failure Expansion) := do
  let vs := x.variants row
  let (drawn, association) := associate out.associations vs.length
  let (sink, result) ← emit z editor association row vs out.sink ⟨0, 0⟩
  return (⟨sink, drawn⟩, result)

end Expander

end SkyDiscovery
