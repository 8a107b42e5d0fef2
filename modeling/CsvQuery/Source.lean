/-
Where rows come from, and what can go wrong while reading them.
-/
import CsvQuery.Files

namespace CsvQuery

abbrev Row := List String

/-- A failure of the csv reader. -/
inductive CsvFault where
  /-- A cell that is no UTF-8: its record, its place in the record, and how
  many of its bytes are well formed. -/
  | notText (record line byte : Nat) (cell : Nat) (wellFormed : Nat)
  | unreadable (fault : IoFault)
deriving DecidableEq, Repr

def CsvFault.message : CsvFault → String
  | .notText record line byte cell wellFormed =>
    "CSV parse error: record " ++ toString record ++ " (line " ++ toString line ++
      ", field: " ++ toString cell ++ ", byte: " ++ toString byte ++
      "): invalid utf-8: invalid UTF-8 in field " ++ toString cell ++
      " near byte index " ++ toString wellFormed
  | .unreadable fault => fault.message

/-- Why a source gives no row or no header. -/
inductive SourceError where
  | io (fault : IoFault)
  | csv (fault : CsvFault)
  | noHeader (name : String)
deriving DecidableEq, Repr

def SourceError.message : SourceError → String
  | .io fault => "IO error: " ++ fault.message
  | .csv fault => "CSV error: " ++ fault.message
  | .noHeader name => "File " ++ name ++ " has no header row"

/-- What reading a source to its end gives, one item per read: rows and
failed reads. -/
abbrev RowStream := List (Except SourceError Row)

/-- A source of rows that are already in memory. -/
structure MemorySource where
  header : List String
  rows : List Row
deriving DecidableEq, Repr

namespace MemorySource

/-- The header, which must not be empty. -/
def readHeader (s : MemorySource) : Except SourceError (List String) :=
  if s.header.isEmpty then .error (.noHeader "<memory>") else .ok s.header

/-- The next row, or none at the end, and the source behind it. -/
def next (s : MemorySource) : Option Row × MemorySource :=
  match s.rows with
  | [] => (none, s)
  | row :: rows => (some row, { s with rows })

def remaining (s : MemorySource) : Nat := s.rows.length

/-- The rows left, none of which fails. -/
def stream (s : MemorySource) : RowStream := s.rows.map .ok

end MemorySource
end CsvQuery
