/-
UTF-8: the characters of a byte sequence, or how far it is well formed.

A sequence is refused at the first byte of the first character that is cut
short, overlong, a surrogate or beyond U+10FFFF, so the error is the length
of the longest well-formed beginning.
-/

namespace CsvQuery
namespace Utf8

/-- A continuation byte, `10xxxxxx`. -/
def isTail (b : UInt8) : Bool :=
  0x80 ≤ b.toNat && b.toNat ≤ 0xBF

/-- The six payload bits of a continuation byte. -/
def tailBits (b : UInt8) : Nat :=
  b.toNat - 0x80

/-- The character of a two-byte sequence, if it is well formed. -/
def two? (a b : UInt8) : Option Char :=
  if 0xC2 ≤ a.toNat && a.toNat ≤ 0xDF && isTail b then
    some (Char.ofNat ((a.toNat - 0xC0) * 64 + tailBits b))
  else none

/-- The character of a three-byte sequence, if it is well formed. -/
def three? (a b c : UInt8) : Option Char :=
  let n := (a.toNat - 0xE0) * 4096 + tailBits b * 64 + tailBits c
  if 0xE0 ≤ a.toNat && a.toNat ≤ 0xEF && isTail b && isTail c && 0x800 ≤ n &&
      (n < 0xD800 || 0xDFFF < n) then
    some (Char.ofNat n)
  else none

/-- The character of a four-byte sequence, if it is well formed. -/
def four? (a b c d : UInt8) : Option Char :=
  let n := (a.toNat - 0xF0) * 262144 + tailBits b * 4096 + tailBits c * 64 + tailBits d
  if 0xF0 ≤ a.toNat && a.toNat ≤ 0xF4 && isTail b && isTail c && isTail d &&
      0x10000 ≤ n && n ≤ 0x10FFFF then
    some (Char.ofNat n)
  else none

/-- Decode from byte `start` on, in front of the characters read so far in
reverse. -/
def decodeFrom (start : Nat) (done : List Char) :
    List UInt8 → Except Nat (List Char)
  | [] => .ok done.reverse
  | a :: rest =>
    if a.toNat < 0x80 then decodeFrom (start + 1) (Char.ofNat a.toNat :: done) rest
    else match rest with
      | [] => .error start
      | b :: rest =>
        match two? a b with
        | some x => decodeFrom (start + 2) (x :: done) rest
        | none => match rest with
          | [] => .error start
          | c :: rest =>
            match three? a b c with
            | some x => decodeFrom (start + 3) (x :: done) rest
            | none => match rest with
              | [] => .error start
              | d :: rest =>
                match four? a b c d with
                | some x => decodeFrom (start + 4) (x :: done) rest
                | none => .error start

/-- The text of a byte sequence; the error counts the well-formed bytes in
front of the first bad character. -/
def decode (bytes : List UInt8) : Except Nat String :=
  (decodeFrom 0 [] bytes).map String.ofList

def encodeChar (c : Char) : List UInt8 :=
  let n := c.toNat
  if n < 0x80 then [n.toUInt8]
  else if n < 0x800 then [(0xC0 + n / 64).toUInt8, (0x80 + n % 64).toUInt8]
  else if n < 0x10000 then
    [(0xE0 + n / 4096).toUInt8, (0x80 + n / 64 % 64).toUInt8, (0x80 + n % 64).toUInt8]
  else
    [(0xF0 + n / 262144).toUInt8, (0x80 + n / 4096 % 64).toUInt8,
      (0x80 + n / 64 % 64).toUInt8, (0x80 + n % 64).toUInt8]

def encode (s : String) : List UInt8 :=
  s.toList.flatMap encodeChar

end Utf8
end CsvQuery
