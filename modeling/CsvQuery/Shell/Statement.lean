/-
Statements as users give them, and the lines on which they are typed.

Blanks around a statement and semicolons at its end are no part of the query.
A line that ends in a backslash, blanks aside, is continued by the next one:
the backslash gives way to a line end.
-/
import CsvQuery.Files
import CsvQuery.Text.Blank
import CsvQuery.Text.Utf8

namespace CsvQuery
namespace Statement

def queryText (statement : String) : String :=
  Text.dropSemicolons (Text.trim statement)

/-- What a line adds to a statement that the next line continues; none if
the line ends the statement. -/
def continued? (line : List Char) : Option (List Char) :=
  match line.reverse.dropWhile Text.isBlank with
  | '\\' :: rest => some (rest.reverse ++ ['\n'])
  | _ => none

/-- What a line does to the lines of a statement in front of it. -/
inductive Joined where
  | pending (lines : List Char)
  | complete (statement : List Char)
deriving DecidableEq, Repr

/-- Put a line behind the lines of a statement. -/
def join (pending line : List Char) : Joined :=
  match continued? line with
  | some part => .pending (pending ++ part)
  | none => .complete (Text.trimChars (pending ++ line))

/-- The statements on some lines, `pending` being the lines of one that has
begun.  One without anything but blanks is no statement, and one without an
end is lost. -/
def ofLines (pending : List Char) : List (List Char) → List (List Char)
  | [] => []
  | line :: lines =>
    match join pending line with
    | .pending pending => ofLines pending lines
    | .complete [] => ofLines [] lines
    | .complete statement => statement :: ofLines [] lines

end Statement

/-! ## Lines of bytes -/

structure Typed where
  lines : List String
  /-- Whether a line follows that is no text. -/
  garbled : Bool
deriving DecidableEq, Repr

namespace Typed

/-- The lines of some bytes without their line ends, the line read so far
being in reverse. -/
def splitFrom (line : List UInt8) : List UInt8 → List (List UInt8)
  | [] => if line.isEmpty then [] else [line.reverse]
  | b :: bytes => if b = 10 then line.reverse :: splitFrom [] bytes else splitFrom (b :: line) bytes

/-- A line without a carriage return at its end. -/
def dropReturn (line : List Char) : List Char :=
  match line.reverse with
  | '\r' :: rest => rest.reverse
  | _ => line

/-- The texts of lines up to the first that is not UTF-8.  Only a line end
takes a carriage return with it, so a last line without one keeps it. -/
def decode (ended : Bool) : List (List UInt8) → Typed
  | [] => { lines := [], garbled := false }
  | line :: lines =>
    match Utf8.decode line with
    | .error _ => { lines := [], garbled := true }
    | .ok text =>
      let rest := decode ended lines
      let text :=
        if lines.isEmpty && !ended then text else String.ofList (dropReturn text.toList)
      { rest with lines := text :: rest.lines }

/-- The lines of some bytes. -/
def ofBytes (bytes : List UInt8) : Typed :=
  decode (bytes.getLast? = some 10) (splitFrom [] bytes)

/-- The lines of what can be read.  The line that a fault cuts off is no
text. -/
def ofContents (c : Contents) : Typed :=
  match c.fault with
  | none => ofBytes c.bytes
  | some _ =>
    { ofBytes (c.bytes.reverse.dropWhile (· != 10)).reverse with garbled := true }

end Typed
end CsvQuery
