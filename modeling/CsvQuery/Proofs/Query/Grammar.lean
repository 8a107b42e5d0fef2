/-
The query language as a grammar.

    SELECT (* | column (, column)*) FROM path:file AS table
    [WHERE condition ((AND | OR) condition)*]
    (LIMIT n | OFFSET n | ORDER BY column (, column)* [ASC | DESC])*

Each relation of this module says which tokens spell which part of a query.
None of them looks ahead, skips a token or knows of errors: a list of tokens
spells a query when it falls into parts that spell the parts of the query,
and that is all.

A column is written with the name of its table.  `Spells` does not ask which
name that is; `Query.OneTable` says that it is the name the query gives its
file.
-/
import CsvQuery.Query.Parse

namespace CsvQuery

/-! ## The references of a query -/

/-- The column an entry refers to. -/
def SelectItem.ref? : SelectItem → Option ColumnRef
  | .all => none
  | .column ref => some ref

/-- The columns of the sort order. -/
def Constraints.refs (c : Constraints) : List ColumnRef :=
  c.order.elim [] SortOrder.columns

/-- All column references of a query. -/
def Query.refs (q : Query) : List ColumnRef :=
  q.select.filterMap SelectItem.ref? ++ q.conditions.map Condition.ref ++ q.constraints.refs

/-- Every column is one of the query's own table. -/
def Query.OneTable (q : Query) : Prop :=
  ∀ ref ∈ q.refs, ref.table = q.table

namespace Constraints

/-- The constraints of two parts of a query. -/
def merge (a b : Constraints) : Constraints :=
  { limit := a.limit.or b.limit, offset := a.offset.or b.offset, order := a.order.or b.order }

/-- No constraint is given by both parts. -/
structure Apart (a b : Constraints) : Prop where
  limit : a.limit = none ∨ b.limit = none
  offset : a.offset = none ∨ b.offset = none
  order : a.order = none ∨ b.order = none

end Constraints

namespace Grammar

/-! ## Single tokens -/

/-- A text between single quotes. -/
def inQuotes (text : String) : String := "'" ++ text ++ "'"

/-- A column reference: in quotes, a table and a column around the only
dot. -/
structure IsRef (token : String) (ref : ColumnRef) : Prop where
  token : token = inQuotes ref.text
  table : ref.table ≠ "" ∧ '.' ∉ ref.table.toList
  column : ref.column ≠ "" ∧ '.' ∉ ref.column.toList

/-- The column of a condition, with its type behind two colons if it has
one. -/
inductive IsColumn : String → ColumnRef → Option ValueType → Prop
  | untyped {token : String} {ref : ColumnRef} : IsRef token ref →
      IsColumn token ref none
  | typed {token : String} {ref : ColumnRef} (t : ValueType) :
      IsRef token ref → IsColumn (token ++ "::" ++ t.word) ref (some t)

/-- The path names a csv file. -/
def IsCsv (files : Files) (path : Path) : Prop :=
  (∃ e, files path = .ok e ∧ e.isFile) ∧
    ∃ ext, path.extension? = some ext ∧ Text.sameWord (String.ofList ext) "csv"

/-- What stands behind `path:`, with or without quotes. -/
inductive IsFile : String → Path → Prop
  | quoted (text : String) : IsFile (inQuotes text) ⟨text⟩
  | bare {text : String} : text ≠ "" → (∀ inner, text ≠ inQuotes inner) →
      IsFile text ⟨text⟩

/-- The name of a table. -/
structure IsTable (token : String) : Prop where
  notReserved : ∀ word ∈ Token.reserved, ¬ Text.sameWord token word
  plain : Token.quoteMark ∉ token.toList ∧ '.' ∉ token.toList ∧
    ',' ∉ token.toList

/-! ## Clauses -/

/-- One or more column references with commas between them. -/
inductive Refs : List String → List ColumnRef → Prop
  | one {token : String} {ref : ColumnRef} : IsRef token ref →
      Refs [token] [ref]
  | more {token : String} {ref : ColumnRef} {tokens : List String}
      {refs : List ColumnRef} :
      IsRef token ref → Refs tokens refs →
        Refs (token :: "," :: tokens) (ref :: refs)

/-- The select list: a star, or columns of different names. -/
inductive SelectList : List String → List SelectItem → Prop
  | star : SelectList ["*"] [.all]
  | columns {tokens : List String} {refs : List ColumnRef} :
      Refs tokens refs → (refs.map ColumnRef.column).Nodup →
        SelectList tokens (refs.map .column)

/-- Three tokens of a condition, whose value is one of its type. -/
structure IsCondition (column operator value : String)
    (c : Condition) : Prop where
  column : IsColumn column c.ref c.valueType
  operator : operator = c.operator.symbol
  value : value = inQuotes c.value
  accepted : ∀ t ∈ c.valueType, t.accepts c.value

/-- One or more conditions with connectives between them. -/
inductive Conditions : List String → List Condition → Prop
  | last {column operator value : String} {c : Condition} :
      IsCondition column operator value c → c.joiner = none →
        Conditions [column, operator, value] [c]
  | more {column operator value word : String} {c : Condition} {k : Connective}
      {tokens : List String} {cs : List Condition} :
      IsCondition column operator value c → c.joiner = some k →
        Text.sameWord word k.word →
        Conditions tokens cs →
          Conditions (column :: operator :: value :: word :: tokens) (c :: cs)

/-- The where clause, which may be missing. -/
inductive Where : List String → List Condition → Prop
  | absent : Where [] []
  | present {word : String} {tokens : List String} {cs : List Condition} :
      Text.sameWord word "where" → Conditions tokens cs →
        Where (word :: tokens) cs

/-- The direction of a sort, ascending when it is left out. -/
inductive SortDirection : List String → Direction → Prop
  | absent : SortDirection [] .ascending
  | ascending {word : String} : Text.sameWord word "asc" →
      SortDirection [word] .ascending
  | descending {word : String} : Text.sameWord word "desc" →
      SortDirection [word] .descending

/-- A single constraint. -/
inductive Constraint : List String → Constraints → Prop
  | limit {word number : String} {n : Nat} :
      Text.sameWord word "limit" → Integer.readCount? number = some n →
        Constraint [word, number] { limit := some n }
  | offset {word number : String} {n : Nat} :
      Text.sameWord word "offset" → Integer.readCount? number = some n →
        Constraint [word, number] { offset := some n }
  | order {word byWord : String} {keys way : List String}
      {columns : List ColumnRef}
      {direction : Direction} :
      Text.sameWord word "order" → Text.sameWord byWord "by" →
        Refs keys columns →
        SortDirection way direction →
          Constraint (word :: byWord :: keys ++ way)
            { order := some { columns, direction } }

/-- Constraints in any order, each at most once. -/
inductive ConstraintList : List String → Constraints → Prop
  | none : ConstraintList [] {}
  | more {first rest : List String} {c others : Constraints} :
      Constraint first c → ConstraintList rest others → c.Apart others →
        ConstraintList (first ++ rest) (c.merge others)

/-! ## Whole queries -/

/-- What every query has: what it selects, from where, and under which
name. -/
inductive Head (files : Files) :
    List String → List SelectItem → Path → String → Prop
  | intro {selectWord fromWord file asWord table : String} {list : List String}
      {select : List SelectItem} {path : Path} :
      Text.sameWord selectWord "select" → SelectList list select →
      Text.sameWord fromWord "from" → IsFile file path → IsCsv files path →
      Text.sameWord asWord "as" → IsTable table →
        Head files (selectWord :: list ++ [fromWord, "path:" ++ file,
          asWord, table])
          select path table

/-- The tokens spell the query. -/
inductive Spells (files : Files) : List String → Query → Prop
  | intro {head wheres tail : List String}
      {select : List SelectItem} {path : Path}
      {table : String} {conditions : List Condition}
      {constraints : Constraints} :
      Head files head select path table → Where wheres conditions →
      ConstraintList tail constraints →
        Spells files (head ++ wheres ++ tail)
          { select, path, table, conditions, constraints }

end Grammar
end CsvQuery
