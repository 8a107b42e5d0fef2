/-
The records of a csv text, as bytes.

A comma ends a cell and a carriage return or line feed ends a record; blank
lines are skipped, so a carriage return and line feed together end one
record.  A cell that starts with a double quote runs to the next single one
of these, a doubled quote standing for itself; what follows the closing quote
is taken as it stands, and so is a quote inside a cell that did not start with
one.  The end of the text ends the cell and the record it is in.

The reader is a machine over the bytes: `step` says what a byte does in each
mode, and `split` collects the cells.
-/

namespace CsvQuery
namespace Csv

/-- Where the reader stands: whole records read, line, and bytes read. -/
structure Position where
  record : Nat
  line : Nat
  byte : Nat
deriving DecidableEq, Repr

def Position.start : Position := ⟨0, 1, 0⟩

def Position.after (p : Position) (b : UInt8) : Position :=
  { p with line := if b = 10 then p.line + 1 else p.line, byte := p.byte + 1 }

/-- A record and where the reader stood when it set out to read it. -/
structure Record where
  position : Position
  cells : List (List UInt8)
deriving DecidableEq, Repr

inductive Mode where
  /-- Between two records. -/
  | between
  /-- At the start of a cell. -/
  | cell
  /-- In a cell without quotes, or behind its closing quote. -/
  | plain
  /-- Inside quotes. -/
  | quoted
  /-- Behind a quote that closes the cell unless another follows. -/
  | closing
deriving DecidableEq, Repr

inductive Step where
  /-- It belongs to no cell. -/
  | skip (next : Mode)
  /-- It is part of the cell. -/
  | keep (next : Mode)
  | endCell
  | endRecord
deriving DecidableEq, Repr

def quote : UInt8 := 0x22

def comma : UInt8 := 0x2C

def isLineEnd (b : UInt8) : Bool :=
  b == 10 || b == 13

/-- What a byte does outside quotes, where `other` is what it does if it has
no meaning there. -/
def endOr (other : Step) (b : UInt8) : Step :=
  if b = comma then .endCell else if isLineEnd b then .endRecord else other

/-- What a byte does at the start of a cell. -/
def stepCell (b : UInt8) : Step :=
  if b = quote then .skip .quoted else endOr (.keep .plain) b

/-- What a byte does in a mode. -/
def step : Mode → UInt8 → Step
  | .between, b => if isLineEnd b then .skip .between else stepCell b
  | .cell, b => stepCell b
  | .plain, b => endOr (.keep .plain) b
  | .quoted, b => if b = quote then .skip .closing else .keep .quoted
  | .closing, b => if b = quote then .keep .quoted else endOr (.keep .plain) b

/-- The records of the bytes from position `here` on.  The record being read
was begun at `start`; its last cell and its cells are in reverse.  It counts
at the end of the bytes only if the text is `ended` there. -/
def split (ended : Bool) (here start : Position) (mode : Mode)
    (cell : List UInt8) (cells : List (List UInt8)) : List UInt8 → List Record
  | [] =>
    match mode with
    | .between => []
    | _ => if ended then [⟨start, (cell.reverse :: cells).reverse⟩] else []
  | b :: rest =>
    let here := here.after b
    match step mode b with
    | .skip next => split ended here start next cell cells rest
    | .keep next => split ended here start next (b :: cell) cells rest
    | .endCell => split ended here start .cell [] (cell.reverse :: cells) rest
    | .endRecord =>
      let here := { here with record := here.record + 1 }
      ⟨start, (cell.reverse :: cells).reverse⟩ :: split ended here here .between [] [] rest

/-- The records of a csv text, or of the beginning of one that is not `ended`.
A byte order mark in front is no part of it. -/
def recordsOf (ended : Bool) : List UInt8 → List Record
  | 0xEF :: 0xBB :: 0xBF :: bytes =>
    split ended { Position.start with byte := 3 } .start .between [] [] bytes
  | bytes => split ended .start .start .between [] [] bytes

/-- The records of a whole csv text. -/
def records (bytes : List UInt8) : List Record :=
  recordsOf true bytes

end Csv
end CsvQuery
