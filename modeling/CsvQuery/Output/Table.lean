/-
Tables drawn with box characters.

    ╭──────┬───────╮
    │ Year │ Units │
    ├──────┼───────┤
    │ 2020 │ Count │
    ╰──────┴───────╯

A column is as wide as its widest line, and every cell has a blank on both
sides.  A cell of several lines is one block: its lines start in the same
column.  The blocks of the header are centred, those of the rows are on the
left.  A table without rows ends with the line below its header.
-/
import CsvQuery.Text.Width

namespace CsvQuery

/-- A table; its rows are as long as its header. -/
structure Table where
  header : List String
  rows : List (List String)
deriving DecidableEq, Repr

namespace Table

/-- The lines of a cell, outermost first. -/
abbrev Block := List (List Char)

/-- The lines of a text, the line read so far being in reverse. -/
def linesFrom (line : List Char) : List Char → Block
  | [] => [line.reverse]
  | c :: cs => if c = '\n' then line.reverse :: linesFrom [] cs else linesFrom (c :: line) cs

def block (cell : String) : Block :=
  linesFrom [] cell.toList

def greatest (ns : List Nat) : Nat :=
  ns.foldl max 0

def blockWidth (b : Block) : Nat :=
  greatest (b.map Text.lineWidth)

/-- The greatest number at every place of some rows. -/
def maxima : List (List Nat) → List Nat
  | [] => []
  | [row] => row
  | row :: rows => List.zipWith max row (maxima rows)

/-- Where the block of a cell stands in its column. -/
inductive Alignment where
  | left
  | centre
deriving DecidableEq, Repr

/-- The blanks in front of a block that leaves `spare` columns free. -/
def Alignment.indent (spare : Nat) : Alignment → Nat
  | .left => 0
  | .centre => spare / 2

def blanks (n : Nat) : List Char :=
  List.replicate n ' '

/-- Line number `k` of a block in a column, with a blank on both sides. -/
def cellLine (alignment : Alignment) (width : Nat) (b : Block)
    (k : Nat) : List Char :=
  let line := b.getD k []
  let indent := if k < b.length then alignment.indent (width - blockWidth b) else 0
  ' ' :: blanks indent ++ line ++ blanks (width - indent - Text.lineWidth line) ++ [' ']

/-- Pieces with marks at both ends and between them. -/
def framed (first between last : Char)
    (pieces : List (List Char)) : List Char :=
  first :: [between].intercalate pieces ++ [last]

def rule (first between last : Char) (widths : List Nat) : List Char :=
  framed first between last (widths.map fun w => List.replicate (w + 2) '─')

def rowLines (alignment : Alignment) (widths : List Nat) (row : List Block) :
    List (List Char) :=
  (List.range (greatest (row.map List.length))).map fun k =>
    framed '│' '│' '│' (List.zipWith (fun w b => cellLine alignment w b k) widths row)

def lines (t : Table) : List (List Char) :=
  let header := t.header.map block
  let rows := t.rows.map fun row => row.map block
  let widths := maxima ((header :: rows).map fun row => row.map blockWidth)
  [rule '╭' '┬' '╮' widths] ++ rowLines .centre widths header ++
    [rule '├' '┼' '┤' widths] ++ rows.flatMap (rowLines .left widths) ++
    (if rows.isEmpty then [] else [rule '╰' '┴' '╯' widths])

/-- The text of a table.  A table without columns is empty. -/
def render (t : Table) : String :=
  if t.header.isEmpty then "" else String.ofList (['\n'].intercalate t.lines)

end Table
end CsvQuery
