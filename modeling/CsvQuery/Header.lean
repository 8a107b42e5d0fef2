/-
The header of a file and the places of its columns.

A name may occur several times in a header.  Everything that looks a name up
finds its first occurrence: the header itself, the `ColumnIndex` made from it,
and the `Selection` of a query.
-/
import CsvQuery.Csv.Source

namespace CsvQuery

/-- The column names of a file, in order. -/
structure Header where
  path : Path
  names : List String
deriving DecidableEq, Repr

namespace Header

def read (files : Files) (path : Path) : Except SourceError Header := do
  let source ← CsvSource.ofFile files path
  let names ← source.headerRow
  return { path, names }

/-- The columns with their places. -/
def columns (h : Header) : List (String × Nat) :=
  h.names.zipIdx

/-- The place of the first column with a name. -/
def position? (h : Header) (name : String) : Option Nat :=
  h.names.idxOf? name

end Header

/-- The places of column names, for evaluating conditions and sorting. -/
structure ColumnIndex where
  entries : List (String × Nat)
deriving DecidableEq, Repr

namespace ColumnIndex

/-- The place of a name. -/
def position? (index : ColumnIndex) (name : String) : Option Nat :=
  index.entries.lookup name

def contains (index : ColumnIndex) (name : String) : Bool :=
  (index.position? name).isSome

/-- Add a column, unless its name is there already. -/
def add (index : ColumnIndex) (column : String × Nat) : ColumnIndex :=
  if index.contains column.1 then index else ⟨index.entries ++ [column]⟩

def ofHeader (h : Header) : ColumnIndex :=
  h.columns.foldl add ⟨[]⟩

end ColumnIndex
end CsvQuery
