/-
Blanks, comments, line ends and strings of a TOML document.

A line ends with a line feed, with or without a carriage return in front; a
carriage return alone stands nowhere.  Strings come between double or single
quotes, one or three of them; only those between double quotes have escapes,
and only those between three quotes run over several lines.
-/
import CsvQuery.Text.Hex

namespace CsvQuery
namespace Toml

def doubleQuote : Char := '\x22'

def singleQuote : Char := '\x27'

def isBlank (c : Char) : Bool :=
  c == ' ' || c == '\t'

/-- The characters of comments, and of strings unless they mean something
there. -/
def isPrintable (c : Char) : Bool :=
  c == '\t' || (0x20 ≤ c.toNat && c.toNat != 0x7F)

def skipBlanks (cs : List Char) : List Char :=
  cs.dropWhile isBlank

def skipComment : List Char → List Char
  | '#' :: cs => cs.dropWhile isPrintable
  | cs => cs

/-- What follows the end of a line that may still hold blanks and a
comment. -/
def lineEnd? (cs : List Char) : Option (List Char) :=
  match skipComment (skipBlanks cs) with
  | [] => some []
  | '\n' :: rest => some rest
  | '\r' :: '\n' :: rest => some rest
  | _ => none

/-- Drop blanks, line ends and comments in front. -/
def skipLines (inComment : Bool) : List Char → List Char
  | [] => []
  | '\r' :: '\n' :: cs => skipLines false cs
  | c :: cs =>
    if c = '\n' then skipLines false cs
    else if inComment then if isPrintable c then skipLines true cs else c :: cs
    else if isBlank c then skipLines false cs
    else if c = '#' then skipLines true cs
    else c :: cs

/-! ## Strings -/

/-- The character of an escape of one letter. -/
def escape? : Char → Option Char
  | 'b' => some '\x08'
  | 't' => some '\t'
  | 'n' => some '\n'
  | 'f' => some '\x0c'
  | 'r' => some '\r'
  | '\x22' => some '\x22'
  | '\\' => some '\\'
  | _ => none

/-- The character with a number, unless it is half of a surrogate pair or too
large. -/
def charOf? (n : Nat) : Option Char :=
  if n < 0xD800 || (0xDFFF < n && n < 0x110000) then some (Char.ofNat n) else none

/-- The character of hexadecimal digits. -/
def hexChar? (digits : List Char) : Option Char :=
  (Text.hexValue? 0 digits).bind charOf?

/-- The rest of a string between double quotes, and what follows it. -/
def basicBody : List Char → Option (List Char × List Char)
  | [] => none
  | '\\' :: 'u' :: a :: b :: c :: d :: cs => do
    let x ← hexChar? [a, b, c, d]
    let (body, rest) ← basicBody cs
    return (x :: body, rest)
  | '\\' :: 'U' :: a :: b :: c :: d :: e :: f :: g :: h :: cs => do
    let x ← hexChar? [a, b, c, d, e, f, g, h]
    let (body, rest) ← basicBody cs
    return (x :: body, rest)
  | '\\' :: c :: cs => do
    let x ← escape? c
    let (body, rest) ← basicBody cs
    return (x :: body, rest)
  | c :: cs =>
    if c = doubleQuote then some ([], cs)
    else if c = '\\' || !isPrintable c then none
    else do
      let (body, rest) ← basicBody cs
      return (c :: body, rest)

/-- The rest of a string between single quotes, and what follows it. -/
def literalBody : List Char → Option (List Char × List Char)
  | [] => none
  | c :: cs =>
    if c = singleQuote then some ([], cs)
    else if !isPrintable c then none
    else do
      let (body, rest) ← literalBody cs
      return (c :: body, rest)

/-- Three quotes close a string of several lines; one or two more in the same
run belong to it.  Gives those, and what follows. -/
def closing? (quote : Char) (cs : List Char) : Option (List Char × List Char) :=
  let count := (cs.takeWhile (· == quote)).length
  if count < 3 then none
  else
    let extra := min (count - 3) 2
    some (List.replicate extra quote, cs.drop (extra + 3))

/-- Where a string of several lines stands in folding a line end away. -/
inductive Folding where
  /-- It is not folding. -/
  | no
  /-- A backslash stood at the end of the line, which is still to come. -/
  | begun
  /-- All blanks and line ends up to the next character are skipped. -/
  | under
deriving DecidableEq, Repr

/-- Does a line end, perhaps behind blanks, come next? -/
def endsLine (cs : List Char) : Bool :=
  match skipBlanks cs with
  | '\n' :: _ => true
  | '\r' :: '\n' :: _ => true
  | _ => false

/-- The rest of a string between three double quotes, and what follows it. -/
def multilineBasicBody (folding : Folding) :
    List Char → Option (List Char × List Char)
  | [] => none
  | '\r' :: '\n' :: cs =>
    if folding = .no then do
      let (body, rest) ← multilineBasicBody .no cs
      return ('\n' :: body, rest)
    else multilineBasicBody .under cs
  | c :: cs =>
    if folding ≠ .no && isBlank c then multilineBasicBody folding cs
    else if folding ≠ .no && c = '\n' then multilineBasicBody .under cs
    else if folding = .begun then none
    else match closing? doubleQuote (c :: cs) with
      | some (body, rest) => some (body, rest)
      | none =>
        if c = '\\' && endsLine cs then multilineBasicBody .begun cs
        else match c, cs with
          | '\\', 'u' :: a :: b :: c :: d :: cs => do
            let x ← hexChar? [a, b, c, d]
            let (body, rest) ← multilineBasicBody .no cs
            return (x :: body, rest)
          | '\\', 'U' :: a :: b :: c :: d :: e :: f :: g :: h :: cs => do
            let x ← hexChar? [a, b, c, d, e, f, g, h]
            let (body, rest) ← multilineBasicBody .no cs
            return (x :: body, rest)
          | '\\', c :: cs => do
            let x ← escape? c
            let (body, rest) ← multilineBasicBody .no cs
            return (x :: body, rest)
          | c, cs =>
            if c = '\\' || !(isPrintable c || c == '\n') then none
            else do
              let (body, rest) ← multilineBasicBody .no cs
              return (c :: body, rest)

/-- The rest of a string between three single quotes, and what follows it. -/
def multilineLiteralBody : List Char → Option (List Char × List Char)
  | [] => none
  | '\r' :: '\n' :: cs => do
    let (body, rest) ← multilineLiteralBody cs
    return ('\n' :: body, rest)
  | c :: cs =>
    match closing? singleQuote (c :: cs) with
    | some (body, rest) => some (body, rest)
    | none =>
      if !(isPrintable c || c == '\n') then none
      else do
        let (body, rest) ← multilineLiteralBody cs
        return (c :: body, rest)

/-- Drop the line end right behind three opening quotes. -/
def skipFirstLineEnd : List Char → List Char
  | '\n' :: cs => cs
  | '\r' :: '\n' :: cs => cs
  | cs => cs

/-- A string on one line, as in keys, and what follows it. -/
def lineString? : List Char → Option (List Char × List Char)
  | '\x22' :: cs => basicBody cs
  | '\x27' :: cs => literalBody cs
  | _ => none

def string? : List Char → Option (List Char × List Char)
  | '\x22' :: '\x22' :: '\x22' :: cs => multilineBasicBody .no (skipFirstLineEnd cs)
  | '\x27' :: '\x27' :: '\x27' :: cs => multilineLiteralBody (skipFirstLineEnd cs)
  | cs => lineString? cs

end Toml
end CsvQuery
