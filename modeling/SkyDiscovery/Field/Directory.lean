import SkyDiscovery.Field.Standard

/-!
# Field directories

The fields of one response in their order, with an index by identifier and one by data-model name.
An identifier is declared once; a data-model name leads to the first field that has it.
-/

namespace SkyDiscovery

structure FieldDirectory where
  fields : List Field
  /-- The places of the fields under their identifiers. -/
  byId : Dictionary Nat
  /-- The places of the first fields with their data-model names. -/
  byUtype : Dictionary Nat
  deriving Inhabited

namespace FieldDirectory

def empty : FieldDirectory := ⟨[], ∅, ∅⟩

def contains (d : FieldDirectory) (id : String) : Bool :=
  d.byId.contains id

/-- The index by data-model name after the field at `place` is added. -/
def indexUtype (index : Dictionary Nat) (utype : String) (place : Nat) : Dictionary Nat :=
  if utype.isEmpty || index.contains utype then index else index.insert utype place

/-- The directory with a further field at its end. -/
def append (d : FieldDirectory) (f : Field) : FieldDirectory :=
  ⟨d.fields ++ [f], d.byId.insert f.id d.fields.length,
    indexUtype d.byUtype f.utype d.fields.length⟩

/-- Adds a field, unless its identifier is already declared; tells whether it did. -/
def insert (d : FieldDirectory) (f : Field) : FieldDirectory × Bool :=
  if d.contains f.id then (d, false) else (d.append f, true)

/-- Adds the fields whose identifiers are not yet declared. -/
def insertAll (d : FieldDirectory) (fs : List Field) : FieldDirectory :=
  fs.foldl (fun d f => (d.insert f).1) d

/-- The field with an identifier. -/
def get? (d : FieldDirectory) (id : String) : Option Field :=
  (d.byId.get? id).bind fun i => d.fields[i]?

/-- The first field with a data-model name. -/
def ofUtype? (d : FieldDirectory) (utype : String) : Option Field :=
  (d.byUtype.get? utype).bind fun i => d.fields[i]?

/-- The field that a keyword names, by identifier or else by data-model name. -/
def named? (d : FieldDirectory) (keyword : String) : Option Field :=
  (d.get? keyword).or (d.ofUtype? keyword)

def ids (d : FieldDirectory) : List String :=
  d.fields.map Field.id

def size (d : FieldDirectory) : Nat :=
  d.fields.length

/-- The standard fields that a table shows at a level. -/
def shownFields (p : Protocol) (t : TableMapping) (verbosity : Option Nat) : List Field :=
  p.standardFields.filter fun f => !t.omits f.id && f.isShown (t.mask verbosity)

/-- The directory of a table: the standard fields that it shows and then its own. -/
def build (p : Protocol) (t : TableMapping) (verbosity : Option Nat) : FieldDirectory :=
  empty.insertAll (shownFields p t verbosity ++ t.customFields.map Field.ofCustom)

end FieldDirectory

end SkyDiscovery
