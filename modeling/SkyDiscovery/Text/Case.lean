/-!
# Letter case

Names are compared without regard to the case of the letters a to z.  Frame names are first put
in Unicode upper case, which turns a few further letters into plain capitals.
-/

namespace SkyDiscovery.Text

/-- The text with A to Z in lower case; all other characters are kept. -/
def lower (s : String) : String :=
  String.ofList (s.toList.map Char.toLower)

/-- Equality up to the case of the letters A to Z. -/
def sameIgnoringCase (s t : String) : Bool :=
  lower s == lower t

/-- The letters outside ASCII whose Unicode upper case is made of ASCII letters. -/
def capitalTable : List (Char × String) :=
  [('\u00df', "SS"), ('\u0131', "I"), ('\u017f', "S"), ('\ufb00', "FF"), ('\ufb01', "FI"),
   ('\ufb02', "FL"), ('\ufb03', "FFI"), ('\ufb04', "FFL"), ('\ufb05', "ST"), ('\ufb06', "ST")]

/-- Upper case as far as ASCII letters come of it; a character whose upper case lies outside
ASCII is kept, and is equal to no ASCII letter either way. -/
def capitals (s : String) : String :=
  String.ofList <| s.toList.flatMap fun c =>
    match capitalTable.lookup c with
    | some w => w.toList
    | none => [c.toUpper]

end SkyDiscovery.Text
