/-
White space, and the trimming and splitting that depend on it.

Blank characters are those of the Unicode property `White_Space`.  The
query tokenizer has a smaller set of its own (`Token.isSeparator`); this
one is for header cells, numbers and shell lines.
-/

namespace CsvQuery
namespace Text

/-- The characters with the property `White_Space`. -/
def isBlank (c : Char) : Bool :=
  let n := c.toNat
  (9 ≤ n && n ≤ 13) || n == 0x20 || n == 0x85 || n == 0xA0 || n == 0x1680 ||
    (0x2000 ≤ n && n ≤ 0x200A) || n == 0x2028 || n == 0x2029 || n == 0x202F ||
    n == 0x205F || n == 0x3000

/-- Drop the longest tail whose characters all satisfy `p`. -/
def dropTail (p : Char → Bool) (cs : List Char) : List Char :=
  (cs.reverse.dropWhile p).reverse

def trimChars (cs : List Char) : List Char :=
  dropTail isBlank (cs.dropWhile isBlank)

def trim (s : String) : String :=
  String.ofList (trimChars s.toList)

def dropSemicolons (s : String) : String :=
  String.ofList (dropTail (· == ';') s.toList)

/-- The words of a text, with the word read so far in reverse. -/
def wordsFrom (word : List Char) : List Char → List (List Char)
  | [] => if word.isEmpty then [] else [word.reverse]
  | c :: cs =>
    if isBlank c then
      if word.isEmpty then wordsFrom [] cs else word.reverse :: wordsFrom [] cs
    else wordsFrom (c :: word) cs

/-- The maximal runs of non-blank characters. -/
def words (s : String) : List String :=
  (wordsFrom [] s.toList).map String.ofList

/-- Equality up to the case of ASCII letters. -/
def sameWord (a b : String) : Bool :=
  a.toList.map Char.toLower == b.toList.map Char.toLower

/-- The text with its ASCII letters in lower case. -/
def lower (s : String) : String :=
  String.ofList (s.toList.map Char.toLower)

end Text
end CsvQuery
