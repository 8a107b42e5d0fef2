/-
The statements that users have entered, kept from session to session.

The file of a history begins with a mark and has a statement on every line
after it, where a backslash stands before every backslash and makes an `n` a
line end.  In a file without the mark every line is a statement as it is.
-/
import CsvQuery.Config
import CsvQuery.Shell.Statement

namespace CsvQuery

/-- The statements entered last, the oldest first. -/
structure History where
  statements : List String
  /-- Whether there is one that the file may not have. -/
  unsaved : Bool
deriving DecidableEq, Repr

namespace History

def empty : History := ⟨[], false⟩

def most : Nat := 100

/-- Keep a statement, unless it is empty or repeats the last one. -/
def add (h : History) (statement : String) : History :=
  if statement = "" || h.statements.getLast? = some statement then h
  else
    let statements := h.statements ++ [statement]
    { statements := statements.drop (statements.length - most), unsaved := true }

/-! ## The text of the file -/

/-- The first line of a file. -/
def mark : String := "#V2"

/-- A statement as it stands on its line. -/
def escape : List Char → List Char
  | [] => []
  | '\n' :: rest => '\\' :: 'n' :: escape rest
  | '\\' :: rest => '\\' :: '\\' :: escape rest
  | c :: rest => c :: escape rest

/-- The statement on a line; none if a backslash stands before anything else. -/
def unescape? : List Char → Option (List Char)
  | [] => some []
  | '\\' :: 'n' :: rest => (unescape? rest).map ('\n' :: ·)
  | '\\' :: '\\' :: rest => (unescape? rest).map ('\\' :: ·)
  | '\\' :: _ => none
  | c :: rest => (unescape? rest).map (c :: ·)

/-- The statement on a line, which is the line where nothing else can be made
of it. -/
def ofLine (line : String) : String :=
  String.ofList ((unescape? line.toList).getD line.toList)

def text (h : History) : String :=
  "".intercalate
    ((mark :: h.statements.map fun s => String.ofList (escape s.toList)).map (· ++ "\n"))

/-- The history in the lines of a file. -/
def ofLines (typed : Typed) : History :=
  let statements := match typed.lines with
    | [] => []
    | first :: rest => if first = mark then rest.map ofLine else first :: rest
  let h := statements.foldl add empty
  { h with unsaved := h.unsaved && typed.garbled }

/-! ## The place of the file -/

def path (home : String) : Path :=
  (Config.directory home).join "history"

/-- The history of earlier sessions. -/
def load (files : Files) (home : String) : History :=
  match files.read (path home) with
  | .error _ => empty
  | .ok contents => ofLines (.ofContents contents)

/-- Save the history, if there is anything new. -/
def save (h : History) (home : String) (d : Disk) : Except IoFault Disk :=
  if h.unsaved then d.write (path home) (Utf8.encode h.text) else .ok d

end History
end CsvQuery
