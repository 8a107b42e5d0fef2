/-
Comparing a field with a value, and two fields with each other.

A declared type says how both sides are read.  A side that is no number of
the type is an error, the field being blamed before the value; a float
comparison with NaN on either side holds for `!=` alone.  Sorting has no
declared type: two integers compare as integers, two numbers as numbers, and
all else as text.
-/
import CsvQuery.Query.Basic
import CsvQuery.Number.Binary64

namespace CsvQuery

/-- Why a condition cannot be decided for a row. -/
inductive ResolveError where
  | unknownColumn (column : String)
  | notOfType (column value : String) (valueType : ValueType)
  | missingField (column : String) (position rowLength : Nat)
deriving DecidableEq, Repr

def ResolveError.message : ResolveError → String
  | .unknownColumn column => "Invalid column to compare. Column " ++ column ++ " not found"
  | .notOfType column value valueType =>
    "Cannot convert '" ++ value ++ "' to " ++ valueType.word ++ " in column " ++ column
  | .missingField column position rowLength =>
    "Row has " ++ toString rowLength ++ " fields, column " ++ column ++ " is at position " ++
      toString position

def readAs {α : Type} (read? : String → Option α) (valueType : ValueType)
    (column text : String) : Except ResolveError α :=
  match read? text with
  | some a => .ok a
  | none => .error (.notOfType column text valueType)

/-- The order of a field and a value under a type; none if they have no
order. -/
def fieldOrder (column field value : String) :
    Option ValueType → Except ResolveError (Option Ordering)
  | some .int => do
    let left ← readAs Integer.read? .int column field
    let right ← readAs Integer.read? .int column value
    return some (compare left right)
  | some .float => do
    let left ← readAs Binary64.read? .float column field
    let right ← readAs Binary64.read? .float column value
    return left.compare? right
  | some .string | none => .ok (some (compare field value))

/-- Does the operator hold in this order?  Without an order only `!=`
does. -/
def Comparison.holdsIn (operator : Comparison) : Option Ordering → Bool
  | some o => operator.holds o
  | none => operator == .notEq

/-- Does the operator hold between a field and a value? -/
def compareField (column field : String) (operator : Comparison)
    (value : String)
    (valueType : Option ValueType) : Except ResolveError Bool :=
  (fieldOrder column field value valueType).map operator.holdsIn

/-- The order of two numbers written as text, if both are numbers and have
one. -/
def floatOrder? (left right : String) : Option Ordering := do
  let l ← Binary64.read? left
  let r ← Binary64.read? right
  l.compare? r

/-- The order of two fields in a sort. -/
def sortCompare (left right : String) : Ordering :=
  match Integer.read? left, Integer.read? right with
  | some l, some r => compare l r
  | _, _ =>
    match floatOrder? left right with
    | some o => o
    | none => compare left right

end CsvQuery
