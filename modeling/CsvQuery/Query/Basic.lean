/-
A query as data: what it selects, from which file, which rows it keeps, and
how it sorts and pages them.

The file gets a table name in the query; every column reference repeats it.
-/
import CsvQuery.Path

namespace CsvQuery

/-- The declared type of a condition's column. -/
inductive ValueType where
  | int
  | float
  | string
deriving DecidableEq, Repr

namespace ValueType

/-- The types, in the order in which messages list them. -/
def all : List ValueType := [.int, .float, .string]

def word : ValueType → String
  | .int => "int"
  | .float => "float"
  | .string => "string"

/-- The type with the given word, case and all. -/
def ofWord? (s : String) : Option ValueType :=
  all.find? fun t => t.word == s

end ValueType

/-- How a condition compares a field with its value. -/
inductive Comparison where
  | eq
  | notEq
  | lt
  | ltEq
  | gt
  | gtEq
deriving DecidableEq, Repr

namespace Comparison

/-- The operators, in the order in which messages list them. -/
def all : List Comparison := [.eq, .notEq, .lt, .ltEq, .gt, .gtEq]

def symbol : Comparison → String
  | .eq => "="
  | .notEq => "!="
  | .lt => "<"
  | .ltEq => "<="
  | .gt => ">"
  | .gtEq => ">="

def ofSymbol? (s : String) : Option Comparison :=
  all.find? fun c => c.symbol == s

/-- Does the operator hold of two values in this order? -/
def holds : Comparison → Ordering → Bool
  | .eq, o => o == .eq
  | .notEq, o => o != .eq
  | .lt, o => o == .lt
  | .ltEq, o => o != .gt
  | .gt, o => o == .gt
  | .gtEq, o => o != .lt

end Comparison

/-- What joins a condition to the next one. -/
inductive Connective where
  | and
  | or
deriving DecidableEq, Repr

/-- The word for a connective, in capitals. -/
def Connective.word : Connective → String
  | .and => "AND"
  | .or => "OR"

/-- A column of the table that a query names. -/
structure ColumnRef where
  table : String
  column : String
deriving DecidableEq, Repr

/-- The reference as written between its quotes. -/
def ColumnRef.text (r : ColumnRef) : String :=
  r.table ++ "." ++ r.column

/-- An entry of the select list. -/
inductive SelectItem where
  | all
  | column (ref : ColumnRef)
deriving DecidableEq, Repr

/-- The column an entry names; none for `*`. -/
def SelectItem.column? : SelectItem → Option String
  | .all => none
  | .column ref => some ref.column

structure Condition where
  ref : ColumnRef
  valueType : Option ValueType
  operator : Comparison
  /-- The value without its quotes. -/
  value : String
  /-- What joins this condition to the next one. -/
  joiner : Option Connective
deriving DecidableEq, Repr

inductive Direction where
  | ascending
  | descending
deriving DecidableEq, Repr

/-- The sort keys, most significant first. -/
structure SortOrder where
  columns : List ColumnRef
  direction : Direction
deriving DecidableEq, Repr

/-- The clauses after the conditions. -/
structure Constraints where
  limit : Option Nat := none
  offset : Option Nat := none
  order : Option SortOrder := none
deriving DecidableEq, Repr

structure Query where
  select : List SelectItem
  path : Path
  table : String
  conditions : List Condition
  constraints : Constraints
deriving DecidableEq, Repr

namespace Query

/-- Is the select list a lone `*`? -/
def selectsAll (q : Query) : Bool :=
  q.select == [.all]

/-- The names in the select list, `*` standing for none. -/
def selectedNames (q : Query) : List String :=
  q.select.filterMap SelectItem.column?

def sortNames (q : Query) : List String :=
  match q.constraints.order with
  | none => []
  | some order => order.columns.map ColumnRef.column

end Query
end CsvQuery
