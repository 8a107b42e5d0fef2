/-
Engine settings as JSON text.

They are written as an object with both fields.  They are read from an object,
where fields may be missing and unknown fields are skipped but no field may
come twice, or from an array of the field values.
-/
import CsvQuery.Engine.Settings
import CsvQuery.Json.Shallow

namespace CsvQuery
namespace Settings

def timeoutKey : String := "query_timeout_ms"

def maxRowsKey : String := "max_rows"

/-- An unsigned 64-bit number written without sign, point and exponent. -/
def count? : Json.Item → Option Nat
  | .number text => if text.all Char.isDigit then Integer.unsigned? text else none
  | _ => none

/-- Such a number, or null for none. -/
def optionalCount? : Json.Item → Option (Option Nat)
  | .null => some none
  | item => (count? item).map some

/-- The value of a field that occurs at most once. -/
def field? (fields : List (String × Json.Item)) (key : String) :
    Option (Option Json.Item) :=
  match fields.filter fun f => f.1 == key with
  | [] => some none
  | [f] => some (some f.2)
  | _ => none

/-- The settings with the given field values, where there are any. -/
def ofItems? (timeout maxRows : Option Json.Item) : Option Settings := do
  let timeout ← match timeout with
    | none => some standard.timeout
    | some item => count? item
  let maxRows ← match maxRows with
    | none => some standard.maxRows
    | some item => optionalCount? item
  return { timeout, maxRows }

def ofJson? (text : String) : Option Settings := do
  match ← Json.read? text with
  | .object fields =>
    let timeout ← field? fields timeoutKey
    let maxRows ← field? fields maxRowsKey
    ofItems? timeout maxRows
  | .array [] => ofItems? none none
  | .array [timeout] => ofItems? (some timeout) none
  | .array [timeout, maxRows] => ofItems? (some timeout) (some maxRows)
  | _ => none

def toJson (s : Settings) : String :=
  "\x7b\"" ++ timeoutKey ++ "\":" ++ toString s.timeout ++ ",\"" ++ maxRowsKey ++ "\":" ++
    (match s.maxRows with
      | none => "null"
      | some n => toString n) ++ "\x7d"

end Settings
end CsvQuery
