/-
TOML values, and tables as they come together from keys and headers.

A table can be written in four ways, and how it was written decides what may
still be added to it.  `descend` walks along a key path and makes the tables on
the way; it enters

- tables of headers and tables that only lie on the way to one, and, from the
  keys of a dotted path, only those that no header has defined;
- the last element of an array of tables;
- never a table between braces, which is complete as it stands.
-/

namespace CsvQuery
namespace Toml

/-- How a table was written. -/
inductive TableKind where
  /-- With a header, or as the document itself. -/
  | defined
  /-- As a step of a header that leads further. -/
  | implied
  /-- As a step of a dotted key. -/
  | dotted
  /-- Between braces. -/
  | braced
deriving DecidableEq, Repr

/-- A value.  Numbers with a point and dates are told apart from everything
else, but not from each other by what they are worth. -/
inductive Value where
  | text (s : String)
  | integer (n : Int)
  | boolean (b : Bool)
  | float
  | moment
  | array (items : List Value)
  | table (kind : TableKind) (entries : List (String × Value))
  /-- An array of tables that headers made, last element first. -/
  | tables (elements : List (List (String × Value)))
deriving Repr

/-- Keys with their values, each key once. -/
abbrev Entries := List (String × Value)

namespace Entries

/-- Give a key a value, in the place of the one it had. -/
def set (entries : Entries) (key : String) (v : Value) : Entries :=
  if (entries.lookup key).isSome then
    entries.map fun e => if e.1 == key then (key, v) else e
  else entries ++ [(key, v)]

/-- The table that a value stands for on the way to another one, and the value
made from it again. -/
def enter? (ofDotted : Bool) :
    Value → Option (TableKind × Entries × (Entries → Value))
  | .table .implied entries => some (.implied, entries, .table .implied)
  | .table .dotted entries => some (.dotted, entries, .table .dotted)
  | .table .defined entries =>
    if ofDotted then none else some (.defined, entries, .table .defined)
  | .tables (last :: others) => some (.defined, last, fun entries => .tables (entries :: others))
  | _ => none

/-- The table that a missing key starts on the way to another one. -/
def newTable (ofDotted : Bool) : TableKind :=
  if ofDotted then .dotted else .implied

/-- Change the table at the end of a path. -/
def descend (ofDotted : Bool) (change : TableKind → Entries → Option Entries) :
    List String → TableKind → Entries → Option Entries
  | [], kind, entries => change kind entries
  | key :: path, _, entries => do
    let (kind, inner, rebuild) ←
      match entries.lookup key with
      | none => some (newTable ofDotted, [], .table (newTable ofDotted))
      | some v => enter? ofDotted v
    let inner ← descend ofDotted change path kind inner
    return entries.set key (rebuild inner)

def add (key : String) (v : Value) (entries : Entries) : Option Entries :=
  if (entries.lookup key).isSome then none else some (entries ++ [(key, v)])

/-- A key, perhaps dotted: the steps of its path and its last part. -/
structure Key where
  path : List String
  last : String
deriving DecidableEq, Repr

/-- Add a key of a table of the given kind.  A dotted key may not add to a
table that something else has begun. -/
def addKey (kind : TableKind) (entries : Entries)
    (pair : Key × Value) : Option Entries :=
  let change : TableKind → Entries → Option Entries := fun found inner =>
    if !pair.1.path.isEmpty && found != .dotted then none else inner.add pair.1.last pair.2
  entries.descend true change pair.1.path kind

def addKeys (kind : TableKind) (entries : Entries)
    (pairs : List (Key × Value)) : Option Entries :=
  pairs.foldlM (addKey kind) entries

/-- A header: `[key]`, or `[[key]]` for one more element of an array. -/
structure Heading where
  key : Key
  isElement : Bool
deriving DecidableEq, Repr

/-- Add what stands below a header.  A header that is no element of an array
may only take up a table that is implied so far. -/
def addSection (entries : Entries) (heading : Heading)
    (pairs : List (Key × Value)) : Option Entries :=
  let name := heading.key.last
  let change : TableKind → Entries → Option Entries := fun _ inner =>
    match heading.isElement, inner.lookup name with
    | true, none => do
      let element ← addKeys .defined [] pairs
      return inner.set name (.tables [element])
    | true, some (.tables elements) => do
      let element ← addKeys .defined [] pairs
      return inner.set name (.tables (element :: elements))
    | false, none => do
      let table ← addKeys .defined [] pairs
      return inner.set name (.table .defined table)
    | false, some (.table .implied begun) => do
      let table ← addKeys .defined begun pairs
      return inner.set name (.table .defined table)
    | _, some _ => none
  entries.descend false change heading.key.path .defined

end Entries
end Toml
end CsvQuery
