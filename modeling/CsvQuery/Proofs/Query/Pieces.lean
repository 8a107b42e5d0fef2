/-
Writing a query.

A query is written in `pieces`: words of the language, which can be in any
case, and tokens that are what they are.  The constraints can come in any order,
the word for an ascending sort can be left out, and the path has to be in
quotes only if the tokenizer would cut it.  `IsWritten` has every text that is
made in this way, with any gaps between the tokens, and `print` is one of them.

Not every query can be written: its names and values must not hold what they
are marked off by (`WellFormed`).
-/
import CsvQuery.Proofs.Query.Grammar
import CsvQuery.Proofs.Token.Layout

namespace CsvQuery

open Grammar

/-! ## Pieces -/

/-- A part of a query as it is written. -/
inductive Piece where
  /-- A word of the language. -/
  | word (text : String)
  | token (text : String)
deriving DecidableEq, Repr

namespace Piece

/-- The tokens that stand for pieces: words are in any case. -/
inductive Spelled : List Piece → List String → Prop
  | nil : Spelled [] []
  | word {text token : String} {pieces : List Piece} {tokens : List String} :
      Text.sameWord token text → Spelled pieces tokens →
        Spelled (.word text :: pieces) (token :: tokens)
  | token {text : String} {pieces : List Piece} {tokens : List String} :
      Spelled pieces tokens → Spelled (.token text :: pieces) (text :: tokens)

end Piece

/-- Tokens with commas between them. -/
def commaSeparated (tokens : List String) : List String :=
  tokens.intersperse ","

/-- A column as it is written. -/
def ColumnRef.token (ref : ColumnRef) : String := inQuotes ref.text

def SelectItem.token : SelectItem → String
  | .all => "*"
  | .column ref => ref.token

/-- The column of a condition, with its type if it has one. -/
def Condition.columnToken (c : Condition) : String :=
  match c.valueType with
  | none => c.ref.token
  | some t => c.ref.token ++ "::" ++ t.word

/-- A condition, and the word that joins it to the next one. -/
def Condition.pieces (c : Condition) : List Piece :=
  .token c.columnToken :: .token c.operator.symbol :: .token (inQuotes c.value) ::
    c.joiner.toList.map fun joiner => .word joiner.word

def wherePieces (cs : List Condition) : List Piece :=
  if cs.isEmpty then [] else .word "WHERE" :: cs.flatMap Condition.pieces

/-- One of the constraints of a query. -/
inductive ConstraintPart where
  | limit (n : Nat)
  | offset (n : Nat)
  | order (keys : SortOrder)
deriving DecidableEq, Repr

/-- The constraints that a query has. -/
def Constraints.parts (c : Constraints) : List ConstraintPart :=
  c.limit.toList.map .limit ++ c.offset.toList.map .offset ++ c.order.toList.map .order

/-- The word for a direction, which may be left out for an ascending sort. -/
def directionPieces (ascending : Bool) : Direction → List Piece
  | .ascending => if ascending then [.word "ASC"] else []
  | .descending => [.word "DESC"]

def ConstraintPart.pieces (ascending : Bool) : ConstraintPart → List Piece
  | .limit n => [.word "LIMIT", .token (toString n)]
  | .offset n => [.word "OFFSET", .token (toString n)]
  | .order keys =>
    .word "ORDER" :: .word "BY" ::
      ((commaSeparated (keys.columns.map ColumnRef.token)).map .token ++
        directionPieces ascending keys.direction)

/-- The path of the file, with or without quotes. -/
def Path.token (quoted : Bool) (path : Path) : String :=
  "path:" ++ if quoted then inQuotes path.text else path.text

/-- The pieces of a query whose constraints come in the given order. -/
def Query.pieces (q : Query) (quoted ascending : Bool)
    (parts : List ConstraintPart) : List Piece :=
  .word "SELECT" :: (commaSeparated (q.select.map SelectItem.token)).map .token ++
    [.word "FROM", .token (q.path.token quoted), .word "AS", .token q.table] ++
      wherePieces q.conditions ++ parts.flatMap (ConstraintPart.pieces ascending)

/-- The tokenizer does not cut the path. -/
def Path.IsPlain (path : Path) : Prop :=
  ∀ c ∈ path.text.toList, Token.isSeparator c = false ∧ c ≠ ','

/-- The text is a way to write the query. -/
def Query.IsWritten (q : Query) (text : String) : Prop :=
  ∃ (quoted ascending : Bool) (parts : List ConstraintPart) (tokens : List String)
    (gap body : List Char),
    (quoted = false → q.path.IsPlain) ∧ parts.Perm q.constraints.parts ∧
    Piece.Spelled (q.pieces quoted ascending parts) tokens ∧
    Token.IsGap gap ∧ Token.LaidOut tokens body ∧ text.toList = gap ++ body

/-! ## Queries that can be written -/

/-- Every condition but the last is joined to the next one. -/
def Joined : List Condition → Prop
  | [] => True
  | [c] => c.joiner = none
  | c :: cs => c.joiner.isSome ∧ Joined cs

/-- A query that can be written. -/
structure Query.WellFormed (files : Files) (q : Query) : Prop where
  table : q.table ≠ "" ∧
    (∀ word ∈ Token.reserved, ¬ Text.sameWord q.table word) ∧
    ∀ c ∈ q.table.toList, c ≠ Token.quoteMark ∧ c ≠ '.' ∧ c ≠ ',' ∧
      Token.isSeparator c = false
  select : q.select = [.all] ∨
    ∃ refs : List ColumnRef, q.select = refs.map .column ∧ refs ≠ [] ∧
    (refs.map ColumnRef.column).Nodup
  own : q.OneTable
  columns : ∀ ref ∈ q.refs, ref.column ≠ "" ∧ '.' ∉ ref.column.toList ∧
    Token.quoteMark ∉ ref.column.toList
  values : ∀ c ∈ q.conditions, Token.quoteMark ∉ c.value.toList ∧
    ∀ t ∈ c.valueType, t.accepts c.value
  joined : Joined q.conditions
  limit : ∀ n ∈ q.constraints.limit, n < Integer.unsignedLimit
  offset : ∀ n ∈ q.constraints.offset, n < Integer.unsignedLimit
  order : ∀ order ∈ q.constraints.order, order.columns ≠ []
  path : q.path.text ≠ "" ∧ Token.quoteMark ∉ q.path.text.toList ∧
    IsCsv files q.path

/-! ## What the pieces spell -/

namespace Piece

section
variable {text : String} {pieces : List Piece} {tokens : List String}

theorem spelled_nil_iff : Spelled [] tokens ↔ tokens = [] := by
  constructor
  · rintro ⟨⟩
    rfl
  · rintro rfl
    exact .nil

theorem spelled_word_iff : Spelled (.word text :: pieces) tokens ↔
    ∃ token rest, tokens = token :: rest ∧ Text.sameWord token text ∧
      Spelled pieces rest := by
  constructor
  · rintro (_ | ⟨hword, hrest⟩)
    exact ⟨_, _, rfl, hword, hrest⟩
  · rintro ⟨token, rest, rfl, hword, hrest⟩
    exact .word hword hrest

theorem spelled_token_iff : Spelled (.token text :: pieces) tokens ↔
    ∃ rest, tokens = text :: rest ∧ Spelled pieces rest := by
  constructor
  · rintro (_ | _ | hrest)
    exact ⟨_, rfl, hrest⟩
  · rintro ⟨rest, rfl, hrest⟩
    exact .token hrest

theorem Spelled.split {before behind : List Piece}
    (h : Spelled (before ++ behind) tokens) :
    ∃ front back, tokens = front ++ back ∧ Spelled before front ∧
      Spelled behind back := by
  induction before generalizing tokens with
  | nil => exact ⟨[], tokens, rfl, .nil, h⟩
  | cons piece before ih =>
      cases h with
      | word hword hrest =>
          obtain ⟨front, back, rfl, hfront, hback⟩ := ih hrest
          exact ⟨_, back, rfl, .word hword hfront, hback⟩
      | token hrest =>
          obtain ⟨front, back, rfl, hfront, hback⟩ := ih hrest
          exact ⟨_, back, rfl, .token hfront, hback⟩

/-- Tokens that are no words are what they are. -/
theorem spelled_tokens_iff {texts : List String} :
    Spelled (texts.map .token) tokens ↔ tokens = texts := by
  induction texts generalizing tokens with
  | nil => exact spelled_nil_iff
  | cons text texts ih => simp [spelled_token_iff, ih]

end
end Piece

/-! ## Printing -/

def Piece.text : Piece → String
  | .word text => text
  | .token text => text

/-- A query as a text: words in capitals, everything in quotes that can be,
and a space behind every token. -/
def Query.print (q : Query) : String :=
  String.ofList ((q.pieces true true q.constraints.parts).flatMap fun piece =>
    piece.text.toList ++ [' '])

theorem Piece.spelled_text (pieces : List Piece) :
    Spelled pieces (pieces.map text) := by
  induction pieces with
  | nil => exact .nil
  | cons piece pieces ih =>
      cases piece with
      | word text => exact .word (by simp [Text.sameWord, Piece.text]) ih
      | token text => exact .token ih

theorem laidOut_spaced (pieces : List Piece) :
    Token.LaidOut (pieces.map Piece.text)
      (pieces.flatMap fun piece => piece.text.toList ++ [' ']) := by
  induction pieces with
  | nil => exact .nil
  | cons piece pieces ih =>
      have hgap : Token.IsGap [' '] := by simp [Token.IsGap, Token.isSeparator]
      exact .cons hgap (fun hnil => absurd hnil (List.cons_ne_nil _ _)) ih

theorem Query.isWritten_print (q : Query) : q.IsWritten q.print := by
  refine ⟨true, true, q.constraints.parts, _, [], _, ?_, .refl _, Piece.spelled_text _, ?_,
    laidOut_spaced _, ?_⟩
  · rintro ⟨⟩
  · simp [Token.IsGap]
  · simp [Query.print]

end CsvQuery
