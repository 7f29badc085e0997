import SkyDiscovery.Number.Shortest

/-!
# Conditions on catalog rows

A condition in the query language of the catalog is a conjunction of factors.  A factor is a
comparison, or a group of alternatives in parentheses; a disjunction is always inside a group, so
conjunctions can be joined without further parentheses.
-/

namespace SkyDiscovery

/-- The test of one column. -/
inductive Comparison where
  | between (column : String) (low high : Float)
  | atMost (column : String) (bound : Float)
  | atLeast (column : String) (bound : Float)
  | equalsNumber (column : String) (value : Float)
  | equalsText (column value : String)
  /-- The column matches a pattern, in which `%` stands for any text. -/
  | like (column pattern : String)
  | isNull (column : String)
  | isNotNull (column : String)

inductive Factor where
  | test (c : Comparison)
  | group (alternatives : List (List Factor))

/-- Factors that must all hold. -/
abbrev Conjunction := List Factor

/-! ## Text -/

/-- A text within the quotes of a literal: each quote is written twice. -/
def escapeLiteral (s : String) : String :=
  String.ofList (s.toList.flatMap fun c => if c = '\x27' then ['\x27', '\x27'] else [c])

def literal (s : String) : String :=
  "'" ++ escapeLiteral s ++ "'"

namespace Comparison

def text : Comparison → String
  | between column low high =>
    column ++ " BETWEEN " ++ plainText low ++ " AND " ++ plainText high
  | atMost column bound => column ++ " <= " ++ plainText bound
  | atLeast column bound => column ++ " >= " ++ plainText bound
  | equalsNumber column value => column ++ " = " ++ plainText value
  | equalsText column value => column ++ " = " ++ literal value
  | like column pattern => column ++ " LIKE " ++ literal pattern
  | isNull column => column ++ " IS NULL"
  | isNotNull column => column ++ " IS NOT NULL"

end Comparison

mutual

def Factor.text : Factor → String
  | .test c => c.text
  | .group [] => "()"
  | .group (c :: cs) => "(" ++ Conjunction.text c ++ Factor.alternativesText cs ++ ")"

/-- The text of a conjunction. -/
def Conjunction.text : List Factor → String
  | [] => ""
  | f :: fs => f.text ++ Conjunction.restText fs

/-- The text of the factors after the first. -/
def Conjunction.restText : List Factor → String
  | [] => ""
  | f :: fs => " AND " ++ f.text ++ Conjunction.restText fs

/-- The text of the alternatives after the first. -/
def Factor.alternativesText : List (List Factor) → String
  | [] => ""
  | c :: cs => " OR " ++ Conjunction.text c ++ Factor.alternativesText cs

end

/-! ## Common conditions -/

namespace Factor

/-- A comparison in parentheses. -/
def only (c : Comparison) : Factor :=
  group [[test c]]

/-- A comparison that is passed by rows without a value in the column. -/
def orNull (c : Comparison) (column : String) : Factor :=
  group [[test c], [test (.isNull column)]]

/-- The column holds one of the texts somewhere in its value. -/
def containsAny (column : String) (texts : List String) : Factor :=
  group (texts.map fun s => [only (.like column ("%" ++ s ++ "%"))])

end Factor

end SkyDiscovery
