/-
Searching a source of rows.

Rows are filtered, then sorted, then the offset is skipped, then the limit is
taken.  Without a sort order rows stream: reading stops with the row that
fills the limit.  With one, all matching rows are kept, sorted stably by their
fields, and paged afterwards.  The deadline is asked before every read; once it
is done the rows read so far are all there are.  The first failure, of a read
or of a condition, fails the whole search.
-/
import CsvQuery.Condition.Chain
import CsvQuery.Scheduler.Job

namespace CsvQuery

/-- A query made ready for the rows of one file. -/
structure Search where
  selection : Selection
  index : ColumnIndex
  chain : Chain
  constraints : Constraints
deriving DecidableEq, Repr

namespace Search

/-- The rows of a search, or why it failed. -/
structure Found where
  rows : List ResultRow
  deadlineExceeded : Bool
deriving DecidableEq, Repr

/-- The end of a search job. -/
def finish (id : WorkerId) : Except QueryError Found → Job
  | .ok found =>
    .ends (.returned
      { id, rows := found.rows, errors := [], deadlineExceeded := found.deadlineExceeded })
  | .error e => .ends (.returned (.failed id (.job id e)))

def accepts (s : Search) (row : Row) : Except QueryError Bool :=
  match s.chain.holds s.index row with
  | .ok b => .ok b
  | .error e => .error (.resolve e)

/-! ## Streaming -/

/-- Search without sorting.  `skip` matching rows are still to be skipped,
`room` is how many may still be taken if there is a limit, and `taken` are the
rows so far in reverse. -/
def streamFrom (s : Search) (id : WorkerId) (skip : Nat) (room : Option Nat)
    (taken : List ResultRow) : RowStream → Job
  | [] => .asks fun done => finish id (.ok ⟨taken.reverse, done⟩)
  | item :: items => .asks fun done =>
    if done then finish id (.ok ⟨taken.reverse, true⟩)
    else match item with
      | .error e => finish id (.error (.source e))
      | .ok row =>
        match s.accepts row with
        | .error e => finish id (.error e)
        | .ok false => streamFrom s id skip room taken items
        | .ok true =>
          match skip with
          | skip + 1 => streamFrom s id skip room taken items
          | 0 =>
            match s.selection.project row with
            | .error e => finish id (.error e)
            | .ok projected =>
              match room with
              | none => streamFrom s id 0 none (projected :: taken) items
              | some (n + 2) => streamFrom s id 0 (some (n + 1)) (projected :: taken) items
              | some _ => finish id (.ok ⟨(projected :: taken).reverse, false⟩)

/-! ## Sorting -/

/-- The places of the sort keys, or the first key that the header lacks. -/
def sortPlaces (index : ColumnIndex) :
    List ColumnRef → Except QueryError (List Nat)
  | [] => .ok []
  | ref :: refs =>
    match index.position? ref.column with
    | none => .error (.unknownColumn ref.column)
    | some position => (sortPlaces index refs).map (position :: ·)

/-- The order of two rows by the fields at the given places, the first
difference deciding; a field that a short row lacks is empty. -/
def compareRows (places : List Nat) (a b : Row) : Ordering :=
  match places with
  | [] => .eq
  | p :: ps => (sortCompare (a.getD p "") (b.getD p "")).then (compareRows ps a b)

/-- May row `a` stand before row `b`? -/
def inOrder (direction : Direction) (places : List Nat) (a b : Row) : Bool :=
  match direction with
  | .ascending => compareRows places a b != .gt
  | .descending => compareRows places a b != .lt

/-- Project rows, up to the first failure. -/
def projectAll (s : Search) : List Row → Except QueryError (List ResultRow)
  | [] => .ok []
  | row :: rows => do
    let first ← s.selection.project row
    let others ← projectAll s rows
    return first :: others

/-- The rows from the offset on, as many as the limit allows. -/
def page {α : Type} (c : Constraints) (rows : List α) : List α :=
  let rows := rows.drop (c.offset.getD 0)
  match c.limit with
  | none => rows
  | some n => rows.take n

/-- Sort and page the matching rows. -/
def sorted (s : Search) (order : SortOrder) (matching : List Row) :
    Except QueryError (List ResultRow) := do
  let places ← sortPlaces s.index order.columns
  s.projectAll (page s.constraints (matching.mergeSort (inOrder order.direction places)))

/-- Search with sorting; `matching` are the matching rows so far in
reverse. -/
def sortFrom (s : Search) (id : WorkerId) (order : SortOrder)
    (matching : List Row) : RowStream → Job
  | [] => .asks fun done =>
    finish id ((s.sorted order matching.reverse).map fun rows => ⟨rows, done⟩)
  | item :: items => .asks fun done =>
    if done then
      finish id ((s.sorted order matching.reverse).map fun rows => ⟨rows, true⟩)
    else match item with
      | .error e => finish id (.error (.source e))
      | .ok row =>
        match s.accepts row with
        | .error e => finish id (.error e)
        | .ok false => sortFrom s id order matching items
        | .ok true => sortFrom s id order (row :: matching) items

/-- The search of a source, as the job of a worker. -/
def job (s : Search) (rows : RowStream) (id : WorkerId) : Job :=
  match s.constraints.order with
  | some order => s.sortFrom id order [] rows
  | none =>
    if s.constraints.limit = some 0 then finish id (.ok ⟨[], false⟩)
    else s.streamFrom id (s.constraints.offset.getD 0) s.constraints.limit [] rows

/-- What a search delivers if the deadline is done after `budget` rows, and
never without a budget. -/
def run (s : Search) (id : WorkerId) (budget : Option Nat)
    (rows : RowStream) : JobResult :=
  ((s.job rows id).endWithin budget).result id

end Search
end CsvQuery
