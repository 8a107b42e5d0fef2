/-
The columns that a query selects, and rows projected onto them.
-/
import CsvQuery.Header
import CsvQuery.Error

namespace CsvQuery

/-- A row of a result: column names with their fields, each name once. -/
abbrev ResultRow := List (String × String)

structure Selection where
  /-- The selected names in the order of the query, or of the header for
  `*`. -/
  names : List String
  /-- The selected places in ascending order, each with its name. -/
  places : List (Nat × String)
deriving DecidableEq, Repr

namespace Selection

/-- The columns of a header whose names have not come before, `seen` holding
those that have. -/
def firstsFrom (seen : List String) : List (String × Nat) → List (String × Nat)
  | [] => []
  | (name, position) :: columns =>
    if seen.contains name then firstsFrom seen columns
    else (name, position) :: firstsFrom (name :: seen) columns

/-- The first column of each name of a header. -/
def firsts (h : Header) : List (String × Nat) :=
  firstsFrom [] h.columns

/-- The selection of all columns: a repeated name is selected once, at its
first place. -/
def all (h : Header) : Selection :=
  { names := (firsts h).map Prod.fst, places := (firsts h).map Prod.swap }

/-- The selection of the named columns, or the first name that the header
lacks. -/
def named (h : Header) (names : List String) : Except QueryError Selection :=
  match names.find? fun name => (h.position? name).isNone with
  | some name => .error (.unknownColumn name)
  | none =>
    .ok { names, places := ((firsts h).filter fun c => names.contains c.1).map Prod.swap }

/-- The selection of a select list; one `*` in it selects all columns. -/
def ofItems (h : Header)
    (items : List SelectItem) : Except QueryError Selection :=
  if items.contains .all then .ok (all h)
  else named h (items.filterMap SelectItem.column?)

/-- The selected places, ascending. -/
def positions (s : Selection) : List Nat :=
  s.places.map Prod.fst

def column? (s : Selection) (position : Nat) : Option String :=
  s.places.lookup position

def containsPosition (s : Selection) (position : Nat) : Bool :=
  (s.column? position).isSome

/-- The fields of a row at the given places; a field that a short row lacks
is empty. -/
def fieldsAt (s : Selection) (row : Row) :
    List Nat → Except QueryError ResultRow
  | [] => .ok []
  | position :: positions =>
    match s.column? position with
    | none => .error (.missingProjection position)
    | some name => (fieldsAt s row positions).map ((name, row.getD position "") :: ·)

/-- A row cut down to the selected columns. -/
def project (s : Selection) (row : Row) : Except QueryError ResultRow :=
  s.fieldsAt row s.positions

end Selection
end CsvQuery
