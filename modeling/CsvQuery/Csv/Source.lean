/-
A csv text as a source of rows.

The first record is the header, whose cells are trimmed; the others are
rows, of any length and untouched.  Asking for the header never takes a row,
and a header that is no text does not keep the rows from being read.  Where
reading breaks off, the fault is told once, in place of the record it cuts off;
behind it is the end.
-/
import CsvQuery.Csv.Record
import CsvQuery.Source
import CsvQuery.Files
import CsvQuery.Text.Blank
import CsvQuery.Text.Utf8

namespace CsvQuery

/-- A csv text being read. -/
structure CsvSource where
  /-- The name that error messages give the text. -/
  name : String
  /-- The cells of the header; none when the text has no record. -/
  header : List (List UInt8)
  /-- The records not yet handed out. -/
  records : List Csv.Record
  /-- What breaks the reading off behind the records, and is yet to be told. -/
  fault : Option IoFault
  /-- Whether anything has been read yet.  Reading the first row reads the
  header too, and an error in the row then names the place where this
  began. -/
  begun : Bool
deriving Repr

namespace CsvSource

/-- The source of what can be read of a csv text. -/
def ofContents (name : String) (c : Contents) : CsvSource :=
  match Csv.recordsOf c.fault.isNone c.bytes with
  | [] => { name, header := [], records := [], fault := c.fault, begun := false }
  | first :: rest =>
    { name, header := first.cells, records := rest, fault := c.fault, begun := false }

def ofBytes (name : String) (bytes : List UInt8) : CsvSource :=
  ofContents name ⟨bytes, none⟩

def ofFile (files : Files) (path : Path) : Except SourceError CsvSource :=
  match files.read path with
  | .error fault => .error (.io fault)
  | .ok contents => .ok (ofContents path.text contents)

/-- The texts of the cells from number `k` on, or the fault of the first
that is not UTF-8. -/
def decodeCells (p : Csv.Position) (k : Nat) :
    List (List UInt8) → Except SourceError Row
  | [] => .ok []
  | cell :: cells =>
    match Utf8.decode cell with
    | .error n => .error (.csv (.notText p.record p.line p.byte k n))
    | .ok text => (decodeCells p (k + 1) cells).map (text :: ·)

/-- Why there is no header where there is no record. -/
def headless (s : CsvSource) : SourceError :=
  match s.fault with
  | none => .noHeader s.name
  | some fault => .csv (.unreadable fault)

/-- The header, which must not be empty. -/
def headerRow (s : CsvSource) : Except SourceError (List String) :=
  if s.header.isEmpty then .error s.headless
  else (decodeCells .start 0 s.header).map (List.map Text.trim)

/-- The header, and the source after it has been asked for. -/
def readHeader (s : CsvSource) : Except SourceError (List String) × CsvSource :=
  (s.headerRow,
    { s with fault := if s.header.isEmpty then none else s.fault, begun := true })

/-- The row in a record that is read next. -/
def rowOf (s : CsvSource) (r : Csv.Record) : Except SourceError Row :=
  decodeCells (if s.begun then r.position else .start) 0 r.cells

/-- What is read behind the last record. -/
def ending (s : CsvSource) : Except SourceError (Option Row) :=
  match s.fault with
  | none => .ok none
  | some fault => .error (.csv (.unreadable fault))

/-- The next row, or none at the end, and the source behind it. -/
def next (s : CsvSource) : Except SourceError (Option Row) × CsvSource :=
  match s.records with
  | [] => (s.ending, { s with fault := none, begun := true })
  | r :: rest => ((s.rowOf r).map some, { s with records := rest, begun := true })

/-- The rows of the records left, with their faults. -/
def rows (s : CsvSource) : RowStream :=
  match s.records with
  | [] => []
  | r :: rest => s.rowOf r :: rest.map { s with begun := true }.rowOf

/-- All that is left to be read. -/
def stream (s : CsvSource) : RowStream :=
  s.rows ++ s.fault.toList.map fun fault => .error (.csv (.unreadable fault))

end CsvSource
end CsvQuery
