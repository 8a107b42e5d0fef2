/-
How many columns of a terminal a text takes.

By itself a character takes no, one or two columns, and one letter takes
three.  But some characters are drawn as one with what follows them: letters
that make a ligature, flags, and the parts that an emoji is put together from.
So a line is measured from its end, each character against the `Context` that
stands behind it.
-/
import CsvQuery.Text.CharRanges

namespace CsvQuery
namespace Text

/-! ## Single characters -/

def isZeroWidth (n : Nat) : Bool := inRanges zeroWidthRanges n

def charWidth (n : Nat) : Nat :=
  if n ≤ 0xA0 then 1
  else if isZeroWidth n then 0
  else if n = 0x17D8 then 3
  else if inRanges wideRanges n then 2
  else 1

/-- The joiner of zero width, which makes one sign of its neighbours. -/
def joiner : Nat := 0x200D

def textSelector : Nat := 0xFE0E

def emojiSelector : Nat := 0xFE0F

/-- Does a character never come between the letters of a ligature? -/
def isUnseen : Nat → Bool :=
  inRanges [(0x34F, 0x34F), (0x17B4, 0x17B5), (0x180B, 0x180D), (0x180F, 0x180F),
    (0x200D, 0x200D), (0xFE00, 0xFE0F), (0xE0100, 0xE01EF)]

/-- Does a selector behind a character choose between text and emoji? -/
def isStyled (n : Nat) : Bool := inRanges styledRanges n

/-- Does a character that is shown as an emoji become a text of one column
when a selector asks for it?  Squared ideographs stay as they are. -/
def isNarrowed (n : Nat) : Bool :=
  isStyled n && inRanges emojiRanges n && !inRanges [(0x1F200, 0x1F2FF)] n

def isLam : Nat → Bool :=
  inRanges [(0x644, 0x644), (0x6B5, 0x6B8), (0x76A, 0x76A), (0x8A6, 0x8A6), (0x8C7, 0x8C7)]

def isAlef : Nat → Bool :=
  inRanges [(0x622, 0x623), (0x625, 0x625), (0x627, 0x627), (0x671, 0x673), (0x675, 0x675),
    (0x773, 0x774), (0x870, 0x882)]

def isKhmerLetter : Nat → Bool :=
  inRanges [(0x1780, 0x1782), (0x1784, 0x1787), (0x1789, 0x178C), (0x178E, 0x1793),
    (0x1795, 0x1798), (0x179B, 0x179D), (0x17A0, 0x17A0), (0x17A2, 0x17A2), (0x17A7, 0x17A7),
    (0x17AB, 0x17AC), (0x17AF, 0x17AF)]

/-- The consonants of Tifinagh. -/
def isTifinagh : Nat → Bool := inRanges [(0x2D31, 0x2D65), (0x2D6F, 0x2D6F)]

/-- The letters of which two make a flag. -/
def isFlagLetter : Nat → Bool := inRanges [(0x1F1E6, 0x1F1FF)]

def isSkinTone : Nat → Bool := inRanges [(0x1F3FB, 0x1F3FF)]

def isTagLetter : Nat → Bool := inRanges [(0xE0061, 0xE007A)]

def isTagDigit : Nat → Bool := inRanges [(0xE0030, 0xE0039)]

/-! ## What stands behind a character -/

/-- A letter that others before it can make a ligature with. -/
inductive Ligature where
  | lamed
  | ya
  /-- The vowel sign i, joined to the letter ya. -/
  | voweledYa
  | tifinagh
  /-- The joiner of Tifinagh before a consonant. -/
  | bondedTifinagh
  | lisuTone
  | orkhonI
  | khmer
deriving DecidableEq, Repr

/-- What stands behind a character, as far as the two can be drawn as one. -/
inductive Shape where
  | plain
  | alef
  /-- A letter, and whether a joiner stands before it. -/
  | ligature (letter : Ligature) (joined : Bool)
  | emoji
  | skinTone
  /-- A joiner before an emoji. -/
  | joined
  /-- The sign of a key before a joiner and an emoji. -/
  | joinedKey
  | flagLetter
  /-- Two flag letters or more. -/
  | flagLetters
  /-- A flag letter before a joiner and an emoji. -/
  | joinedFlagLetter
  /-- Two flag letters or more before a joiner and an emoji. -/
  | joinedFlagLetters (even : Bool)
  /-- The end of a flag's tag, with this many letters, before an emoji joined
  to the flag. -/
  | tagLetters (count : Nat)
  /-- The end of a flag's tag, with this many digits in front. -/
  | tagDigits (count : Nat)
deriving DecidableEq, Repr

/-- A shape, and whether selectors between it and the character ask for an
emoji or for a text. -/
structure Context where
  shape : Shape
  asEmoji : Bool
  asText : Bool
deriving DecidableEq, Repr

/-- The shape that a character makes by itself. -/
def Shape.of (n : Nat) : Shape :=
  if n ≤ 0xA0 then .plain
  else if n = 0x5DC then .ligature .lamed false
  else if isAlef n then .alef
  else if isKhmerLetter n then .ligature .khmer false
  else if n = 0x1A10 then .ligature .ya false
  else if isTifinagh n then .ligature .tifinagh false
  else if n = 0xA4FC || n = 0xA4FD then .ligature .lisuTone false
  else if n = 0x10C03 then .ligature .orkhonI false
  else if isFlagLetter n then .flagLetter
  else if isSkinTone n then .skinTone
  else if inRanges emojiRanges n then .emoji
  else .plain

/-- The columns that a character adds to a ligature letter behind it, and what
the two are for the character before. -/
def Ligature.meets? (letter : Ligature) (joined : Bool)
    (n : Nat) : Option (Int × Shape) :=
  match letter with
  | .lamed => if joined && n = 0x5D0 then some (0, .plain) else none
  | .ya => if joined && n = 0x1A17 then some (0, .ligature .voweledYa true) else none
  | .voweledYa => if n = 0x1A15 then some (0, .plain) else none
  | .tifinagh =>
    if n = 0x2D7F then some (1, .ligature .bondedTifinagh true)
    else if joined && isTifinagh n then some (0, .plain)
    else none
  | .bondedTifinagh => if isTifinagh n then some (-1, .plain) else none
  | .lisuTone => if inRanges [(0xA4F8, 0xA4FB)] n then some (0, .plain) else none
  | .orkhonI => if joined && n = 0x10C32 then some (0, .plain) else none
  | .khmer => if n = 0x17D2 then some (-1, .plain) else none

/-- The columns that a character adds to an emoji with a joiner behind it. -/
def Shape.joins? (n : Nat) : Option (Int × Shape) :=
  if n = 0x20E3 then some (0, .joinedKey)
  else if isFlagLetter n then some (1, .joinedFlagLetter)
  else if isSkinTone n then some (0, .skinTone)
  else if n = 0xE007F then some (0, .tagLetters 0)
  else if Shape.of n = .emoji then some (0, .emoji)
  else none

/-- The columns that a character adds to a shape behind it, and what the two
are for the character before; none if they have nothing to do with each
other. -/
def Shape.meets? (s : Shape) (n : Nat) : Option (Int × Shape) :=
  match s with
  | .plain => none
  | .alef =>
    if isLam n then some (0, .plain)
    else if isZeroWidth n && !inRanges detachedRanges n then some (0, .alef)
    else none
  | .ligature letter isJoined =>
    if n = joiner then some (0, .ligature letter true)
    else if isUnseen n then some (0, s)
    else letter.meets? isJoined n
  | .emoji => if n = joiner then some (0, .joined) else none
  | .skinTone =>
    if n = joiner then some (0, .joined)
    else if inRanges skinRanges n then some (0, .emoji)
    else none
  | .joined => Shape.joins? n
  | .joinedKey => none
  | .flagLetter => if isFlagLetter n then some (1, .flagLetters) else none
  | .flagLetters =>
    if n = joiner then some (0, .joined)
    else if isFlagLetter n then some (1, .flagLetters)
    else none
  | .joinedFlagLetter => if isFlagLetter n then some (-1, .joinedFlagLetters true) else none
  | .joinedFlagLetters even =>
    if n = joiner then some (0, .joined)
    else if isFlagLetter n then some (if even then 3 else -1, .joinedFlagLetters !even)
    else none
  | .tagLetters k =>
    if isTagLetter n && k < 6 then some (0, .tagLetters (k + 1))
    else if isTagDigit n && k < 5 then some (0, .tagDigits 1)
    else if n = 0x1F3F4 && 3 ≤ k then some (0, .emoji)
    else none
  | .tagDigits k =>
    if isTagDigit n && k < 3 then some (0, .tagDigits (k + 1))
    else if n = 0x1F3F4 && k = 3 then some (0, .emoji)
    else none

/-- Is the shape a letter?  Selectors do not come between letters. -/
def Shape.isLetter : Shape → Bool
  | .alef => true
  | .ligature _ _ => true
  | _ => false

/-- Does the shape wait for an emoji in front of its joiner? -/
def Shape.isJoined : Shape → Bool
  | .joined => true
  | .joinedKey => true
  | _ => false

namespace Context

/-- Behind the last character of a line. -/
def plain : Context := ⟨.plain, false, false⟩

/-- Behind a selector that asks for an emoji. -/
def selectEmoji (k : Context) : Context :=
  if k.shape.isLetter || k.shape.isJoined then { k with asEmoji := true }
  else ⟨.plain, true, false⟩

/-- Behind a selector that asks for a text. -/
def selectText (k : Context) : Context :=
  if k.shape.isLetter then { k with asText := true } else ⟨.plain, false, true⟩

/-- The context without its selectors, where any were: letters stay. -/
def bare (selected : Bool) (k : Context) : Context :=
  if selected && !k.shape.isLetter then plain else k

/-- The columns that a character adds to a context without selectors, and the
context for the character before. -/
def meet (k : Context) (n : Nat) : Int × Context :=
  let (columns, shape) := (k.shape.meets? n).getD (charWidth n, .of n)
  (columns, ⟨shape, false, false⟩)

/-- The same where a selector may ask for a text. -/
def readText (k : Context) (n : Nat) : Int × Context :=
  if n ≤ 0xA0 then (1, plain)
  else if n = emojiSelector then (0, k.selectEmoji)
  else if n = textSelector then (0, k.selectText)
  else if k.asText && isNarrowed n then (1, plain)
  else (k.bare k.asText).meet n

/-- The same where a selector may ask for an emoji. -/
def read (k : Context) (n : Nat) : Int × Context :=
  if k.asEmoji then
    if isStyled n then (if k.shape.isJoined then 0 else 2, ⟨.emoji, false, false⟩)
    else readText { k.bare true with asEmoji := false } n
  else k.readText n

end Context

/-- The columns that the end of a line takes, and its context. -/
def measure (line : List Char) : Int × Context :=
  line.foldr
    (fun c behind =>
      let (columns, context) := behind.2.read c.toNat
      (behind.1 + columns, context))
    (0, .plain)

def lineWidth (line : List Char) : Nat :=
  (measure line).1.toNat

end Text
end CsvQuery
