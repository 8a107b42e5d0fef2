/-
What a query asks of a table.

The definitions of this module know of no header with places, no scan and no
worker.  A column is the first one with its name; a row satisfies the
conditions when all of some group between two ORs are true of it; the answer
has the rows that satisfy them, in order, from the offset on, at most as many
as the limit, and at most as many as the engine returns.
-/
import CsvQuery.Engine.Basic
import CsvQuery.Proofs.Condition.Evaluation

namespace CsvQuery

/-! ## Rows of a table -/

namespace Table

/-- The field of a row in the first column with a name; a field that a short
row lacks is empty. -/
def field (names : List String) (row : Row) (name : String) : String :=
  row.getD (names.idxOf name) ""

/-- Is a predicate true of a row?  It needs a field to be true of. -/
def satisfies (names : List String) (row : Row) (p : Predicate) : Bool :=
  match names.idxOf? p.column with
  | none => false
  | some position =>
    match row[position]? with
    | none => false
    | some field =>
      (compareField p.column field p.operator p.value p.valueType).toOption == some true

/-- Does a row satisfy a where clause? -/
def accepts (names : List String) (cs : List Condition) (row : Row) : Bool :=
  cs.isEmpty || (Condition.groups cs).any fun group => group.all (satisfies names row)

/-- The order of two rows by columns, the first difference deciding. -/
def compareBy (names : List String) : List ColumnRef → Row → Row → Ordering
  | [], _, _ => .eq
  | ref :: refs, a, b =>
    (sortCompare (field names a ref.column) (field names b ref.column)).then
      (compareBy names refs a b)

/-- The order of two rows in a sort. -/
def compareIn (names : List String) (order : SortOrder)
    (a b : Row) : Ordering :=
  match order.direction with
  | .ascending => compareBy names order.columns a b
  | .descending => (compareBy names order.columns a b).swap

/-- The fields of a row in the selected columns, in the order of the
header. -/
def project (names selected : List String) (row : Row) : ResultRow :=
  (names.eraseDups.filter selected.contains).map fun name => (name, field names row name)

end Table

/-- The rows `sorted` are those of `rows` in order, and rows that tie keep
their places among each other. -/
structure StablySorted {α : Type} (cmp : α → α → Ordering)
    (rows sorted : List α) : Prop where
  perm : sorted.Perm rows
  inOrder : sorted.Pairwise fun a b => cmp a b ≠ .gt
  stable : ∀ a ∈ rows,
    sorted.filter (fun b => cmp a b == .eq)
      = rows.filter fun b => cmp a b == .eq

/-- A comparison that is transitive on some values. -/
def ConsistentOn {α : Type} (cmp : α → α → Ordering) (values : List α) : Prop :=
  ∀ a ∈ values, ∀ b ∈ values, ∀ c ∈ values, cmp a b ≠ .gt → cmp b c ≠ .gt → cmp a c ≠ .gt

/-- At most so many, if there is a bound. -/
def atMost {α : Type} (bound : Option Nat) (l : List α) : List α :=
  bound.elim l l.take

namespace Query

/-- The names of the selected columns: those of the select list, or for `*`
those of the header without its repeats. -/
def columnsOf (q : Query) (names : List String) : List String :=
  if q.selectsAll then names.eraseDups else q.selectedNames

/-- The matching rows in the order of the query. -/
def Sorts (q : Query) (names : List String)
    (matching sorted : List Row) : Prop :=
  match q.constraints.order with
  | none => sorted = matching
  | some order => StablySorted (Table.compareIn names order) matching sorted

/-- The answer to a query over a table with the given header and rows. -/
structure IsAnswer (q : Query) (names : List String) (rows : List Row)
    (maxRows : Option Nat) (o : Outcome) : Prop where
  noErrors : o.errors = []
  inTime : o.deadlineExceeded = false
  allColumns : o.allColumns = names
  selectedColumns : o.selectedColumns = q.columnsOf names
  rows : ∃ sorted,
    q.Sorts names (rows.filter (Table.accepts names q.conditions)) sorted ∧
    o.rows = (atMost maxRows (atMost q.constraints.limit
      (sorted.drop (q.constraints.offset.getD 0)))).map
        (Table.project names (q.columnsOf names))

end Query
end CsvQuery
