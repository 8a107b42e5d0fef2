/-
TOML documents.

A document is a list of lines, each a key with its value or a header, with
blank lines and comments between them.  `Document.read?` gives the entries of
the whole document, and nothing for a text that is no TOML.

Arrays and braces may be nested, and keys dotted, up to a fixed depth.
-/
import CsvQuery.Toml.Text
import CsvQuery.Toml.Scalar

namespace CsvQuery
namespace Toml

/-- The deepest nesting of values, and the most parts of a key. -/
def maxDepth : Nat := 79

/-! ## Keys -/

/-- The characters of a key without quotes. -/
def isKeyChar (c : Char) : Bool :=
  c.isAlphanum || c == '-' || c == '_'

/-- A part of a key, and what follows it. -/
def keyPart? (cs : List Char) : Option (String × List Char) :=
  match cs with
  | '\x22' :: _ | '\x27' :: _ => (lineString? cs).map fun (s, rest) => (String.ofList s, rest)
  | _ =>
    let name := cs.takeWhile isKeyChar
    if name.isEmpty then none else some (String.ofList name, cs.dropWhile isKeyChar)

/-- A key of at most the given number of parts, with the blanks around them,
and what follows it. -/
def key? : Nat → List Char → Option (Entries.Key × List Char)
  | 0, _ => none
  | parts + 1, cs => do
    let (part, cs) ← keyPart? (skipBlanks cs)
    match skipBlanks cs with
    | '.' :: cs =>
      let (key, rest) ← key? parts cs
      return ({ key with path := part :: key.path }, rest)
    | rest => return ({ path := [], last := part }, rest)

/-! ## Values -/

/-- A reader of something at the front of a text. -/
abbrev Reader (α : Type) := List Char → Option (α × List Char)

/-- The items of an array behind its opening bracket or a comma. -/
def items (item : Reader Value) : Nat → Reader (List Value)
  | 0, _ => none
  | fuel + 1, cs =>
    match skipLines false cs with
    | ']' :: rest => some ([], rest)
    | cs => do
      let (first, cs) ← item cs
      match skipLines false cs with
      | ']' :: rest => return ([first], rest)
      | ',' :: cs =>
        let (others, rest) ← items item fuel cs
        return (first :: others, rest)
      | _ => none

def pair (value : Reader Value) : Reader (Entries.Key × Value) := fun cs => do
  let (key, cs) ← key? maxDepth cs
  match cs with
  | '=' :: cs =>
    let (v, rest) ← value (skipBlanks cs)
    return ((key, v), rest)
  | _ => none

/-- The keys between braces behind the opening brace or a comma, at least
one. -/
def pairs (value : Reader Value) : Nat → Reader (List (Entries.Key × Value))
  | 0, _ => none
  | fuel + 1, cs => do
    let (first, cs) ← pair value cs
    match skipBlanks cs with
    | '\x7d' :: rest => return ([first], rest)
    | ',' :: cs =>
      let (others, rest) ← pairs value fuel cs
      return (first :: others, rest)
    | _ => none

/-- A table behind its opening brace. -/
def braced (value : Reader Value) : Reader Value := fun cs =>
  match skipBlanks cs with
  | '\x7d' :: rest => some (.table .braced [], rest)
  | cs => do
    let (found, rest) ← pairs value cs.length cs
    let entries ← Entries.addKeys .braced [] found
    return (.table .braced entries, rest)

/-- A value with at most the given number of brackets around anything in
it. -/
def value : Nat → Reader Value
  | 0, cs => plain cs
  | depth + 1, cs =>
    match cs with
    | '[' :: cs => (items (value depth) (cs.length + 1) cs).map fun (vs, rest) => (.array vs, rest)
    | '\x7b' :: cs => braced (value depth) cs
    | cs => plain cs
where
  /-- A value without brackets. -/
  plain : Reader Value := fun cs =>
    match cs with
    | '\x22' :: _ | '\x27' :: _ => (string? cs).map fun (s, rest) => (.text (String.ofList s), rest)
    | _ => (scalar? (splitScalar cs).1).map fun v => (v, (splitScalar cs).2)

/-! ## Documents -/

inductive Line where
  | pair (key : Entries.Key) (value : Value)
  | heading (heading : Entries.Heading)

/-- The header behind its opening brackets, and what follows its closing
ones. -/
def heading? : Reader Entries.Heading
  | '[' :: cs => do
    let (key, cs) ← key? maxDepth cs
    match cs with
    | ']' :: ']' :: rest => return ({ key, isElement := true }, rest)
    | _ => none
  | cs => do
    let (key, cs) ← key? maxDepth cs
    match cs with
    | ']' :: rest => return ({ key, isElement := false }, rest)
    | _ => none

def line? : Reader Line
  | '[' :: cs => (heading? cs).map fun (heading, rest) => (.heading heading, rest)
  | cs => (pair (value maxDepth) cs).map fun ((key, v), rest) => (.pair key v, rest)

/-- The lines of a text; each takes at least one character. -/
def lines : Nat → List Char → Option (List Line)
  | 0, _ => none
  | fuel + 1, cs =>
    match skipLines false cs with
    | [] => some []
    | cs => do
      let (first, cs) ← line? cs
      let rest ← lineEnd? cs
      let others ← lines fuel rest
      return first :: others

/-- The keys in front of the first header, and the headers with the keys below
each. -/
def sections : List Line →
    List (Entries.Key × Value)
      × List (Entries.Heading × List (Entries.Key × Value))
  | [] => ([], [])
  | .pair key v :: rest => ((key, v) :: (sections rest).1, (sections rest).2)
  | .heading heading :: rest => ([], (heading, (sections rest).1) :: (sections rest).2)

def entriesOf (ls : List Line) : Option Entries := do
  let top ← Entries.addKeys .defined [] (sections ls).1
  (sections ls).2.foldlM (fun entries s => entries.addSection s.1 s.2) top

/-- The entries of a document.  A byte order mark in front is no part of
it. -/
def read? (text : String) : Option Entries := do
  let cs := match text.toList with
    | '\uFEFF' :: cs => cs
    | cs => cs
  let ls ← lines (cs.length + 1) cs
  entriesOf ls

end Toml
end CsvQuery
