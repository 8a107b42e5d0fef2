/-
Numbers, truth values, dates and times of a TOML document.

Digits may be grouped by single underscores between two of them.  Whole
numbers have 64 bits and, in base ten, no leading zeros; the other bases take
no sign.  A number with a point or an exponent is refused if it is too large.
Dates and times have the form `1979-05-27T07:32:00.5-08:00`, where the date,
or all behind it, or the offset may be missing.
-/
import CsvQuery.Toml.Value
import CsvQuery.Text.Hex
import CsvQuery.Number.Binary64

namespace CsvQuery
namespace Toml

/-! ## Numbers -/

/-- Digits without the underscores that group them; `needed` tells that a
digit has to come next. -/
def ungroup (isDigit : Char → Bool)
    (needed : Bool) : List Char → Option (List Char)
  | [] => if needed then none else some []
  | c :: cs =>
    if isDigit c then (ungroup isDigit false cs).map (c :: ·)
    else if c = '_' && !needed then ungroup isDigit true cs
    else none

/-- A run of digits, perhaps grouped. -/
def digits? (cs : List Char) : Option (List Char) :=
  ungroup Char.isDigit true cs

/-- A run of digits without a leading zero. -/
def wholeDigits? (cs : List Char) : Option (List Char) :=
  match digits? cs with
  | some ('0' :: _ :: _) => none
  | ds => ds

/-- A sign, if there is one, and what follows. -/
def splitSign : List Char → List Char × List Char
  | '+' :: cs => (['+'], cs)
  | '-' :: cs => (['-'], cs)
  | cs => ([], cs)

def decimal? (cs : List Char) : Option Int := do
  let ds ← wholeDigits? (splitSign cs).2
  Integer.signed? ((splitSign cs).1 ++ ds)

def inBase (base : Nat) (ds : List Char) : Nat :=
  ds.foldl (fun n c => base * n + (Text.hexDigit? c).getD 0) 0

/-- The number that digits in a base spell, below 2^63. -/
def based? (base : Nat) (cs : List Char) : Option Int := do
  let ds ← ungroup (fun c => (Text.hexDigit? c).any (· < base)) true cs
  if inBase base ds < Integer.signedLimit then some (inBase base ds) else none

def integer? : List Char → Option Int
  | '0' :: 'x' :: cs => based? 16 cs
  | '0' :: 'o' :: cs => based? 8 cs
  | '0' :: 'b' :: cs => based? 2 cs
  | cs => decimal? cs

/-- Does an exponent start here? -/
def isExponentMark (c : Char) : Bool :=
  c == 'e' || c == 'E'

/-- The exponent of a number, its mark in front. -/
def exponent? : List Char → Option (List Char)
  | [] => some []
  | _ :: cs => do
    let ds ← digits? (splitSign cs).2
    return 'e' :: (splitSign cs).1 ++ ds

/-- The digits behind the point of a number, if it has one. -/
def fraction? : List Char → Option (List Char)
  | [] => some []
  | _ :: cs => (digits? cs).map ('.' :: ·)

/-- A number with a point, an exponent or both, without the underscores. -/
def floatText? (cs : List Char) : Option (List Char) := do
  let (sign, cs) := splitSign cs
  let mantissa := cs.takeWhile fun c => !isExponentMark c
  let exponent := cs.dropWhile fun c => !isExponentMark c
  let whole := mantissa.takeWhile (· != '.')
  let part := mantissa.dropWhile (· != '.')
  if exponent.isEmpty && part.isEmpty then none
  else do
    let whole ← wholeDigits? whole
    let part ← fraction? part
    let exponent ← exponent? exponent
    return sign ++ whole ++ part ++ exponent

/-- Is this a number that is not whole, or the name of one? -/
def isFloat (cs : List Char) : Bool :=
  let name := (splitSign cs).2
  if name = ['i', 'n', 'f'] || name = ['n', 'a', 'n'] then true
  else match floatText? cs with
    | none => false
    | some text =>
      match Binary64.ofChars? text with
      | some (.number rank) => rank != Binary64.infinityRank
      | _ => false

/-! ## Dates and times -/

/-- A number of two digits between two bounds. -/
def isTwoDigit (low high : Nat) (a b : Char) : Bool :=
  let n := Integer.digitsValue 0 [a, b]
  a.isDigit && b.isDigit && low ≤ n && n ≤ high

def daysIn (year month : Nat) : Nat :=
  if month = 2 then
    if year % 4 = 0 && (year % 100 != 0 || year % 400 == 0) then 29 else 28
  else if [4, 6, 9, 11].contains month then 30
  else 31

/-- A date in front, and what follows it. -/
def afterDate? : List Char → Option (List Char)
  | a :: b :: c :: d :: '-' :: e :: f :: '-' :: g :: h :: rest =>
    let year := Integer.digitsValue 0 [a, b, c, d]
    let month := Integer.digitsValue 0 [e, f]
    if [a, b, c, d].all Char.isDigit && isTwoDigit 1 12 e f &&
        isTwoDigit 1 (daysIn year month) g h then some rest
    else none
  | _ => none

/-- What follows the fraction of a second, if there is one. -/
def afterFraction? : List Char → Option (List Char)
  | '.' :: c :: cs => if c.isDigit then some (cs.dropWhile Char.isDigit) else none
  | '.' :: [] => none
  | cs => some cs

/-- A time in front, and what follows it.  A minute may have a leap second. -/
def afterTime? : List Char → Option (List Char)
  | a :: b :: ':' :: c :: d :: ':' :: e :: f :: rest =>
    if isTwoDigit 0 23 a b && isTwoDigit 0 59 c d && isTwoDigit 0 60 e f then
      afterFraction? rest
    else none
  | _ => none

/-- The distance from universal time, or nothing. -/
def isOffset : List Char → Bool
  | [] => true
  | ['Z'] => true
  | ['z'] => true
  | [s, a, b, ':', c, d] => (s == '+' || s == '-') && isTwoDigit 0 23 a b && isTwoDigit 0 59 c d
  | _ => false

def isMoment (cs : List Char) : Bool :=
  match afterDate? cs with
  | some [] => true
  | some (mark :: rest) =>
    (mark == 'T' || mark == 't' || mark == ' ') && (afterTime? rest).any isOffset
  | none => afterTime? cs == some []

/-! ## Scalars -/

/-- The characters of scalars other than strings. -/
def isScalarChar (c : Char) : Bool :=
  c.isAlphanum || c == '+' || c == '-' || c == '_' || c == '.' || c == ':'

/-- The scalar in front, and what follows it.  A blank may stand between a
date and a time. -/
def splitScalar (cs : List Char) : List Char × List Char :=
  let first := cs.takeWhile isScalarChar
  match cs.dropWhile isScalarChar with
  | ' ' :: c :: rest =>
    if afterDate? first = some [] && c.isDigit then
      (first ++ ' ' :: (c :: rest).takeWhile isScalarChar, (c :: rest).dropWhile isScalarChar)
    else (first, ' ' :: c :: rest)
  | rest => (first, rest)

def scalar? (cs : List Char) : Option Value :=
  if cs = ['t', 'r', 'u', 'e'] then some (.boolean true)
  else if cs = ['f', 'a', 'l', 's', 'e'] then some (.boolean false)
  else match integer? cs with
    | some n => some (.integer n)
    | none =>
      if isFloat cs then some .float
      else if isMoment cs then some .moment
      else none

end Toml
end CsvQuery
