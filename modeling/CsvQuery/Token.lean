/-
Tokens of a query text.

Space, tab, line feed and carriage return separate tokens; a comma is a
token of its own.  Inside a pair of single quotes neither rule applies, and
the quotes stay part of the token, so `'e.Year'::int` is one token.  A quote
left open swallows the rest of the text.

`scan` is one structural pass over the characters: it carries the token read
so far and whether a quote is open, and never looks back.
-/

namespace CsvQuery
namespace Token

/-- The single quote around column references and values. -/
def quoteMark : Char := '\x27'

/-- The characters that separate tokens outside quotes. -/
def isSeparator (c : Char) : Bool :=
  c == ' ' || c == '\t' || c == '\n' || c == '\r'

/-- The token read so far, if there is one; it is kept in reverse. -/
def flush (current : List Char) : List (List Char) :=
  if current.isEmpty then [] else [current.reverse]

/-- The tokens of a text, `current` being the token read so far in reverse
and `quoted` telling whether a quote is open. -/
def scan (quoted : Bool) (current : List Char) : List Char → List (List Char)
  | [] => flush current
  | c :: cs =>
    if c = quoteMark then scan (!quoted) (c :: current) cs
    else if quoted then scan quoted (c :: current) cs
    else if isSeparator c then flush current ++ scan false [] cs
    else if c = ',' then flush current ++ [','] :: scan false [] cs
    else scan false (c :: current) cs

end Token

/-- The tokens of a query text, in order. -/
def tokenize (sql : String) : List String :=
  (Token.scan false [] sql.toList).map String.ofList

end CsvQuery
