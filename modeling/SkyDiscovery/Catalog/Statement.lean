import SkyDiscovery.Text.Blank

/-!
# Catalog statements

A query is put to the catalog as a cursor over the JSON objects of its rows.
-/

namespace SkyDiscovery.Statement

/-- The text of a query without the semicolons that end it. -/
def bare (query : List Char) : List Char :=
  Text.trimEnd ((Text.trim query).reverse.dropWhile (· == ';')).reverse

/-- The statement for the rows of a query, each as one JSON object. -/
def jsonRows (query : String) : String :=
  "SELECT row_to_json(q)::text FROM (" ++ String.ofList (bare query.toList) ++ ") AS q"

/-- The name of the cursor of a query. -/
def cursorName : String := "dal_rows"

/-- The statement that declares the cursor of a query. -/
def declareCursor (query : String) : String :=
  "DECLARE " ++ cursorName ++ " NO SCROLL CURSOR FOR " ++ jsonRows query

end SkyDiscovery.Statement
