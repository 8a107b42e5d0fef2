/-
Hexadecimal digits.
-/

namespace CsvQuery
namespace Text

/-- The value of a hexadecimal digit in either case. -/
def hexDigit? (c : Char) : Option Nat :=
  let n := c.toNat
  if c.isDigit then some (n - 48)
  else if 97 ≤ n && n ≤ 102 then some (n - 87)
  else if 65 ≤ n && n ≤ 70 then some (n - 55)
  else none

/-- The number that a run of hexadecimal digits continues, `n` standing in
front. -/
def hexValue? (n : Nat) : List Char → Option Nat
  | [] => some n
  | c :: cs => (hexDigit? c).bind fun d => hexValue? (16 * n + d) cs

/-- The digit of a number below 16, in lower case. -/
def hexDigit (n : Nat) : Char :=
  if n < 10 then Char.ofNat (48 + n) else Char.ofNat (87 + n)

end Text
end CsvQuery
