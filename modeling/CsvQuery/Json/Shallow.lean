/-
Reading the outermost level of a JSON text.

Settings are numbers in one object or array, so what is nested deeper only has
to be well formed.  The text is cut into tokens, and a machine with a stack of
open brackets checks them and keeps the values of the first level.
-/
import CsvQuery.Number.Integer
import CsvQuery.Text.Hex

namespace CsvQuery
namespace Json

inductive Token where
  | openObject
  | closeObject
  | openArray
  | closeArray
  | colon
  | comma
  /-- A string; its text is missing when an escape names half of a surrogate
  pair. -/
  | string (text : Option String)
  /-- A number as written. -/
  | number (text : List Char)
  | boolean
  | null
deriving DecidableEq, Repr

/-! ## Strings -/

def escape? : Char → Option Nat
  | '\x22' => some 0x22
  | '\\' => some 0x5C
  | '/' => some 0x2F
  | 'b' => some 0x08
  | 'f' => some 0x0C
  | 'n' => some 0x0A
  | 'r' => some 0x0D
  | 't' => some 0x09
  | _ => none

/-- A part of a string: a character or a number from a `\u` escape. -/
inductive Unit16 where
  | char (c : Char)
  | code (n : Nat)

/-- The parts of a string up to its closing quote, and what follows. -/
def stringParts : List Char → Option (List Unit16 × List Char)
  | [] => none
  | '\x22' :: rest => some ([], rest)
  | '\\' :: 'u' :: a :: b :: c :: d :: rest => do
    let n ← Text.hexValue? 0 [a, b, c, d]
    let (parts, rest) ← stringParts rest
    return (.code n :: parts, rest)
  | '\\' :: e :: rest => do
    let n ← escape? e
    let (parts, rest) ← stringParts rest
    return (.char (Char.ofNat n) :: parts, rest)
  | c :: rest =>
    if c = '\\' || c.toNat < 0x20 then none
    else do
      let (parts, rest) ← stringParts rest
      return (.char c :: parts, rest)

/-- The characters of the parts of a string; a high surrogate needs a low one
behind it and a low one needs a high one in front. -/
def joinParts : List Unit16 → Option (List Char)
  | [] => some []
  | .char c :: rest => (joinParts rest).map (c :: ·)
  | .code n :: rest =>
    if n < 0xD800 || 0xDFFF < n then (joinParts rest).map (Char.ofNat n :: ·)
    else match rest with
      | .code m :: rest =>
        if n < 0xDC00 && 0xDC00 ≤ m && m ≤ 0xDFFF then
          (joinParts rest).map
            (Char.ofNat (0x10000 + (n - 0xD800) * 0x400 + (m - 0xDC00)) :: ·)
        else none
      | _ => none

/-! ## Numbers -/

/-- A run of at least one digit, and what follows. -/
def digits (cs : List Char) : Option (List Char × List Char) :=
  let ds := cs.takeWhile Char.isDigit
  if ds.isEmpty then none else some (ds, cs.dropWhile Char.isDigit)

/-- The digits before the point: a zero stands alone. -/
def wholePart : List Char → Option (List Char × List Char)
  | '0' :: rest => some (['0'], rest)
  | cs => digits cs

def fractionPart : List Char → Option (List Char × List Char)
  | '.' :: rest => (digits rest).map fun (ds, rest) => ('.' :: ds, rest)
  | cs => some ([], cs)

def exponentPart : List Char → Option (List Char × List Char)
  | e :: rest =>
    if e = 'e' || e = 'E' then
      match rest with
      | '+' :: rest => (digits rest).map fun (ds, rest) => (e :: '+' :: ds, rest)
      | '-' :: rest => (digits rest).map fun (ds, rest) => (e :: '-' :: ds, rest)
      | rest => (digits rest).map fun (ds, rest) => (e :: ds, rest)
    else some ([], e :: rest)
  | [] => some ([], [])

def number (cs : List Char) : Option (List Char × List Char) := do
  let (sign, cs) := match cs with
    | '-' :: rest => (['-'], rest)
    | cs => ([], cs)
  let (whole, cs) ← wholePart cs
  let (fraction, cs) ← fractionPart cs
  let (exponent, cs) ← exponentPart cs
  return (sign ++ whole ++ fraction ++ exponent, cs)

/-! ## Tokens -/

/-- The token at the front of a text, and what follows. -/
def token : List Char → Option (Token × List Char)
  | [] => none
  | '\x7b' :: rest => some (.openObject, rest)
  | '\x7d' :: rest => some (.closeObject, rest)
  | '[' :: rest => some (.openArray, rest)
  | ']' :: rest => some (.closeArray, rest)
  | ':' :: rest => some (.colon, rest)
  | ',' :: rest => some (.comma, rest)
  | '\x22' :: rest =>
    (stringParts rest).map fun (parts, rest) =>
      (.string ((joinParts parts).map String.ofList), rest)
  | 't' :: 'r' :: 'u' :: 'e' :: rest => some (.boolean, rest)
  | 'f' :: 'a' :: 'l' :: 's' :: 'e' :: rest => some (.boolean, rest)
  | 'n' :: 'u' :: 'l' :: 'l' :: rest => some (.null, rest)
  | cs => (number cs).map fun (text, rest) => (.number text, rest)

/-- The blanks of JSON. -/
def isSpace (c : Char) : Bool :=
  c == ' ' || c == '\t' || c == '\n' || c == '\r'

/-- The tokens of a text; every token takes at least one character, so its
length is enough fuel. -/
def tokensFrom : Nat → List Char → Option (List Token)
  | 0, _ => none
  | fuel + 1, cs =>
    match cs.dropWhile isSpace with
    | [] => some []
    | cs => do
      let (t, rest) ← token cs
      let ts ← tokensFrom fuel rest
      return t :: ts

def tokens (text : String) : Option (List Token) :=
  tokensFrom (text.length + 1) text.toList

/-! ## The first level -/

/-- A value of the first level; what is inside brackets is not kept. -/
inductive Item where
  | number (text : List Char)
  | null
  | other
deriving DecidableEq, Repr

/-- The outermost level of a text. -/
inductive Shallow where
  | object (fields : List (String × Item))
  | array (items : List Item)
  | scalar
deriving DecidableEq, Repr

inductive Bracket where
  | object
  | array
deriving DecidableEq, Repr

/-- What may come next. -/
inductive Awaited where
  | value
  /-- The first value of an array, or its end. -/
  | valueOrEnd
  | key
  /-- The first key of an object, or its end. -/
  | keyOrEnd
  | colon
  | commaOrEnd
  /-- Nothing: the text is over. -/
  | nothing
deriving DecidableEq, Repr

/-- What comes after a value inside the given brackets. -/
def afterValue (stack : List Bracket) : Awaited :=
  if stack.isEmpty then .nothing else .commaOrEnd

/-- Is exactly one bracket open? -/
def isFirstLevel : List Bracket → Bool
  | [_] => true
  | _ => false

/-- The machine after a token: the open brackets, innermost first, and what
may come next. -/
def check (stack : List Bracket) (awaited : Awaited) (t : Token) :
    Option (List Bracket × Awaited) :=
  match awaited, t with
  | .value, .openObject | .valueOrEnd, .openObject => some (.object :: stack, .keyOrEnd)
  | .value, .openArray | .valueOrEnd, .openArray => some (.array :: stack, .valueOrEnd)
  | .value, .string _ | .valueOrEnd, .string _
  | .value, .number _ | .valueOrEnd, .number _
  | .value, .boolean | .valueOrEnd, .boolean
  | .value, .null | .valueOrEnd, .null => some (stack, afterValue stack)
  | .valueOrEnd, .closeArray => some (stack.tail, afterValue stack.tail)
  | .key, .string (some _) | .keyOrEnd, .string (some _) => some (stack, .colon)
  | .key, .string none | .keyOrEnd, .string none =>
    -- Only the keys of the first level are compared with anything.
    if isFirstLevel stack then none else some (stack, .colon)
  | .keyOrEnd, .closeObject => some (stack.tail, afterValue stack.tail)
  | .colon, .colon => some (stack, .value)
  | .commaOrEnd, .comma =>
    match stack with
    | .object :: _ => some (stack, .key)
    | .array :: _ => some (stack, .value)
    | [] => none
  | .commaOrEnd, .closeObject =>
    match stack with
    | .object :: rest => some (rest, afterValue rest)
    | _ => none
  | .commaOrEnd, .closeArray =>
    match stack with
    | .array :: rest => some (rest, afterValue rest)
    | _ => none
  | _, _ => none

/-- The value that a token starts, where a value may stand. -/
def item? (awaited : Awaited) (t : Token) : Option Item :=
  match awaited, t with
  | .value, .number text | .valueOrEnd, .number text => some (.number text)
  | .value, .null | .valueOrEnd, .null => some .null
  | .value, .closeArray | .valueOrEnd, .closeArray => none
  | .value, _ | .valueOrEnd, _ => some .other
  | _, _ => none

/-- The values of the first level with their keys, in a well-formed rest of a
text; `key` is the last key of that level. -/
def itemsFrom (stack : List Bracket) (awaited : Awaited) (key : String) :
    List Token → Option (List (String × Item))
  | [] => if awaited = .nothing then some [] else none
  | t :: ts => do
    let (newStack, newAwaited) ← check stack awaited t
    let newKey := match stack, awaited, t with
      | [_], .key, .string (some text) | [_], .keyOrEnd, .string (some text) => text
      | _, _, _ => key
    let items ← itemsFrom newStack newAwaited newKey ts
    if isFirstLevel stack then
      return ((item? awaited t).map (key, ·)).toList ++ items
    else return items

/-- The outermost level of a JSON text, if the text is well formed. -/
def read? (text : String) : Option Shallow := do
  let ts ← tokens text
  let items ← itemsFrom [] .value "" ts
  match ts.head? with
  | some .openObject => return .object items
  | some .openArray => return .array (items.map Prod.snd)
  | _ => return .scalar

end Json
end CsvQuery
