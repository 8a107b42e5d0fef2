/-
Rows as a JSON array of objects.

Every level is indented by two blanks and every entry has a line of its own;
an empty array or object stays on one line.
-/
import CsvQuery.Text.Hex

namespace CsvQuery
namespace Json

/-- A character of a string.  The quote, the backslash and the controls are
escaped. -/
def escaped (c : Char) : List Char :=
  if c = '\x22' then ['\\', '\x22']
  else if c = '\\' then ['\\', '\\']
  else if c = '\x08' then ['\\', 'b']
  else if c = '\x0c' then ['\\', 'f']
  else if c = '\n' then ['\\', 'n']
  else if c = '\r' then ['\\', 'r']
  else if c = '\t' then ['\\', 't']
  else if c.toNat < 0x20 then
    ['\\', 'u', '0', '0', Text.hexDigit (c.toNat / 16), Text.hexDigit (c.toNat % 16)]
  else [c]

def quoted (s : String) : String :=
  "\x22" ++ String.ofList (s.toList.flatMap escaped) ++ "\x22"

/-- A cell, or null where there is none. -/
def cell : Option String → String
  | some text => quoted text
  | none => "null"

/-- Entries inside brackets, at a level that starts with the given blanks. -/
def bracketed (first last blanks : String) (entries : List String) : String :=
  if entries.isEmpty then first ++ last
  else
    first ++ "\n" ++ ",\n".intercalate (entries.map (blanks ++ "  " ++ ·)) ++ "\n" ++ blanks ++
      last

/-- A row as an object of the outermost array. -/
def object (row : List (String × Option String)) : String :=
  bracketed "\x7b" "\x7d" "  " (row.map fun (name, text) => quoted name ++ ": " ++ cell text)

def rows (rows : List (List (String × Option String))) : String :=
  bracketed "[" "]" "" (rows.map object)

end Json
end CsvQuery
