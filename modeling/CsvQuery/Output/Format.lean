/-
The formats in which a result can be shown.
-/
import CsvQuery.Engine.Basic
import CsvQuery.Output.Table
import CsvQuery.Output.Json

namespace CsvQuery

inductive OutputFormat where
  | table
  | json
deriving DecidableEq, Repr

namespace OutputFormat

/-- The formats, in the order in which messages list them. -/
def all : List OutputFormat := [.table, .json]

def word : OutputFormat → String
  | .table => "table"
  | .json => "json"

/-- The format with the given word, case and all. -/
def ofWord? (s : String) : Option OutputFormat :=
  all.find? fun f => f.word == s

/-- The format with the given word in any case. -/
def ofName? (s : String) : Option OutputFormat :=
  ofWord? (Text.lower s)

def unknownMessage (s : String) : String :=
  "unknown output format '" ++ Text.lower s ++ "', expected " ++ " or ".intercalate (all.map word)

end OutputFormat

namespace Outcome

/-- The cells of a row under the given names, in their order. -/
def cells (names : List String)
    (row : ResultRow) : List (String × Option String) :=
  names.map fun name => (name, row.lookup name)

/-- The rows as a table, with an empty cell where a row has none. -/
def toTable (o : Outcome) : Table :=
  { header := o.selectedColumns,
    rows := o.rows.map fun row => (cells o.selectedColumns row).map fun c => c.2.getD "" }

/-- The rows as JSON; a column that is selected twice is written once. -/
def toJson (o : Outcome) : String :=
  Json.rows (o.rows.map (cells o.selectedColumns.eraseDups))

def render (o : Outcome) : OutputFormat → String
  | .table => o.toTable.render
  | .json => o.toJson

end Outcome
end CsvQuery
