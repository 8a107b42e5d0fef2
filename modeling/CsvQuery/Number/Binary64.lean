/-
Decimal text read as a binary64 number, as far as comparison can tell two of
them apart.

The finite doubles and the infinities form one chain, with both zeros at the
same place.  A number is its distance from zero on that chain, negative
below zero, so that comparing numbers is comparing integers.  For a
non-negative double the distance is its bit pattern read as a number.
-/
import CsvQuery.Text.Blank
import CsvQuery.Number.Integer

namespace CsvQuery

/-- A binary64 number without the sign of zero. -/
inductive Binary64 where
  | nan
  | number (rank : Int)
deriving DecidableEq, Repr

namespace Binary64

/-- The rank of positive infinity, just above the largest finite double. -/
def infinityRank : Nat := 0x7FF0000000000000

/-- `num / den` rounded to the nearest whole number, a half to the even one. -/
def roundQuotient (num den : Nat) : Nat :=
  let q := num / den
  let r := num % den
  if 2 * r < den then q
  else if den < 2 * r then q + 1
  else q + q % 2

/-- Is `num / den` at least `2 ^ k`? -/
def reaches (num den : Nat) (k : Int) : Bool :=
  if 0 ≤ k then den <<< k.toNat ≤ num else den ≤ num <<< (-k).toNat

/-- The largest `k` with `2 ^ k ≤ num / den`, for positive `num` and `den`:
the lengths of both sides leave two candidates. -/
def binaryExponent (num den : Nat) : Int :=
  let k : Int := (num.log2 : Int) - (den.log2 : Int)
  if reaches num den k then k else k - 1

/-- The rank of the double nearest to `num / den`, ties to the even one.
The spacing of the doubles around the quotient is `2 ^ (unit - 1074)`; the
ranks of one binade continue those of the one before, so the rounded multiple
is added to where the binade starts, and a carry into the next binade or to
infinity needs no case of its own. -/
def rankOfRatio (num den : Nat) : Nat :=
  if num = 0 then 0
  else
    let unit := (binaryExponent num den - 52 + 1074).toNat
    let scaled := roundQuotient (num <<< 1074) (den <<< unit)
    min (unit <<< 52 + scaled) infinityRank

/-- The rank of the double nearest to the whole number written `ds` times
`10 ^ exponent`.  Without leading zeros the digits show the size: values below
10^-330 round to zero and values from 10^310 on to infinity. -/
def rankOfDecimal (ds : List Char) (exponent : Int) : Nat :=
  let significant := ds.dropWhile (· == '0')
  let mantissa := Integer.digitsValue 0 significant
  let size : Int := significant.length + exponent
  if significant.isEmpty || size < -330 then 0
  else if 310 < size then infinityRank
  else if 0 ≤ exponent then rankOfRatio (mantissa * Nat.pow 10 exponent.toNat) 1
  else rankOfRatio mantissa (Nat.pow 10 (-exponent).toNat)

/-- The exponent part of a decimal, empty or `e` with a signed run of
digits. -/
def exponent? : List Char → Option Int
  | [] => some 0
  | e :: cs =>
    if e.toLower = 'e' then
      match cs with
      | '-' :: ds => (Integer.digits? ds).map fun n => -(n : Int)
      | '+' :: ds => (Integer.digits? ds).map fun n => (n : Int)
      | ds => (Integer.digits? ds).map fun n => (n : Int)
    else none

/-- The digits after the point, when there is one, and what follows them. -/
def fraction (cs : List Char) : List Char × List Char :=
  match cs with
  | '.' :: rest => (rest.takeWhile Char.isDigit, rest.dropWhile Char.isDigit)
  | rest => ([], rest)

/-- The rank of an unsigned decimal: digits with an optional point among or
around them, at least one digit, and an optional exponent. -/
def decimalRank? (cs : List Char) : Option Nat := do
  let whole := cs.takeWhile Char.isDigit
  let (part, rest) := fraction (cs.dropWhile Char.isDigit)
  let ds := whole ++ part
  if ds.isEmpty then none
  else do
    let e ← exponent? rest
    some (rankOfDecimal ds (e - part.length))

/-- An unsigned number: a decimal, or one of the names `inf`, `infinity` and
`nan` in any case. -/
def unsigned? (cs : List Char) : Option Binary64 :=
  let name := cs.map Char.toLower
  if name = ['n', 'a', 'n'] then some .nan
  else if name = ['i', 'n', 'f'] || name = ['i', 'n', 'f', 'i', 'n', 'i', 't', 'y'] then
    some (.number infinityRank)
  else (decimalRank? cs).map fun r => .number r

def negate : Binary64 → Binary64
  | .nan => .nan
  | .number r => .number (-r)

/-- A number with an optional sign. -/
def ofChars? (cs : List Char) : Option Binary64 :=
  match cs with
  | '-' :: rest => (unsigned? rest).map negate
  | '+' :: rest => unsigned? rest
  | rest => unsigned? rest

/-- A number between optional blanks. -/
def read? (s : String) : Option Binary64 :=
  ofChars? (Text.trimChars s.toList)

/-- The order of two numbers; none when one of them is not a number. -/
def compare? : Binary64 → Binary64 → Option Ordering
  | .number a, .number b => some (compare a b)
  | _, _ => none

end Binary64
end CsvQuery
