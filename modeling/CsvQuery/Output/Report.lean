/-
What a user sees of an answer.

Results, and what else is asked for, go to the standard output; errors,
warnings and the count of rows go to the standard error output, each on a line
of its own.
-/
import CsvQuery.Output.Format

namespace CsvQuery

/-- Something printed, without the line end behind it. -/
inductive Report where
  | out (text : String)
  | err (text : String)
  /-- The count of rows on the standard error output.  It shows how long the
  query took, which is known to the printer only. -/
  | count (rows : Nat)
deriving DecidableEq, Repr

namespace Report

/-- The count of rows and the time they took. -/
def countText (rows millis : Nat) : String :=
  "(" ++ toString rows ++ (if rows = 1 then " row in " else " rows in ") ++ toString millis ++
    "ms)"

def onOut : Report → String
  | .out text => text ++ "\n"
  | _ => ""

/-- What goes to the standard error output when a query took some
milliseconds. -/
def onErr (millis : Nat) : Report → String
  | .err text => text ++ "\n"
  | .count rows => countText rows millis ++ "\n"
  | .out _ => ""

end Report

/-- Are messages painted? -/
structure Style where
  painted : Bool
deriving DecidableEq, Repr

namespace Style

/-- Is a terminal's paint asked for in the environment, where the output is
no terminal? -/
def forced (env : String → Option String) : Bool :=
  (env "CLICOLOR_FORCE").any (· != "0")

/-- The code that ends all paint. -/
def unpaint : List Char := "\x1b[0m".toList

/-- A text with `code` behind every end of paint in it. -/
def repaint (code : List Char) : List Char → List Char
  | '\x1b' :: '[' :: '0' :: 'm' :: rest => unpaint ++ code ++ repaint code rest
  | c :: rest => c :: repaint code rest
  | [] => []

/-- A text between the codes that paint it.  An end of paint inside the text
does not end the paint of what follows. -/
def paint (s : Style) (code text : String) : String :=
  if s.painted then
    let code := "\x1b[".toList ++ code.toList ++ ['m']
    String.ofList (code ++ repaint code text.toList ++ unpaint)
  else text

def error (s : Style) (message : String) : Report :=
  .err (s.paint "1;31" "error:" ++ " " ++ message)

def warning (s : Style) (message : String) : Report :=
  .err (s.paint "1;33" "warning:" ++ " " ++ message)

def info (s : Style) (message : String) : Report :=
  .out (s.paint "34" message)

end Style

namespace Outcome

def isOk (o : Outcome) : Bool := o.errors.isEmpty

/-- What a user sees of an outcome: its errors, or its rows with their
count. -/
def reports (o : Outcome) (format : OutputFormat)
    (style : Style) : List Report :=
  if o.isOk then
    [.out (o.render format)] ++
      (if o.deadlineExceeded then
        [style.warning "Query deadline exceeded, showing partial results"]
      else []) ++
      [.count o.rows.length]
  else o.errors.map fun e => style.error e.message

end Outcome
end CsvQuery
