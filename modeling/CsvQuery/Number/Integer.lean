/-
Whole numbers as text: an optional sign and at least one ASCII digit, inside
the range of a 64-bit word.
-/
import CsvQuery.Text.Blank

namespace CsvQuery
namespace Integer

/-- The least number that is too large for a signed word, 2^63. -/
def signedLimit : Nat := 0x8000000000000000

/-- The least number that is too large for an unsigned word, 2^64. -/
def unsignedLimit : Nat := 0x10000000000000000

def digitValue (c : Char) : Nat :=
  c.toNat - 48

/-- The number that a run of digits continues, `n` standing in front. -/
def digitsValue (n : Nat) (cs : List Char) : Nat :=
  cs.foldl (fun n c => 10 * n + digitValue c) n

/-- A non-empty run of digits and nothing else. -/
def digits? (cs : List Char) : Option Nat :=
  if !cs.isEmpty && cs.all Char.isDigit then some (digitsValue 0 cs) else none

/-- A signed number between -2^63 and 2^63 - 1. -/
def signed? (cs : List Char) : Option Int :=
  match cs with
  | '-' :: ds => do
    let n ← digits? ds
    if n ≤ signedLimit then some (-(n : Int)) else none
  | '+' :: ds => do
    let n ← digits? ds
    if n < signedLimit then some (n : Int) else none
  | ds => do
    let n ← digits? ds
    if n < signedLimit then some (n : Int) else none

/-- A number below 2^64; a minus sign is refused even before zero. -/
def unsigned? (cs : List Char) : Option Nat := do
  let n ← digits? (match cs with
    | '+' :: ds => ds
    | ds => ds)
  if n < unsignedLimit then some n else none

/-- A signed 64-bit number between optional blanks. -/
def read? (s : String) : Option Int :=
  signed? (Text.trimChars s.toList)

/-- An unsigned 64-bit number with nothing around it. -/
def readCount? (s : String) : Option Nat :=
  unsigned? s.toList

end Integer
end CsvQuery
