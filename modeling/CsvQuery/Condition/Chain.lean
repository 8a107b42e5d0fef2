/-
The conditions of a query as a chain, and whether a row satisfies it.

A chain alternates predicates and connectives.  AND binds tighter than OR: the
predicates between two ORs form a group, and a row satisfies the chain when it
satisfies all predicates of some group.  Groups and their predicates are
tried from left to right and no further than needed, so a predicate that
cannot be decided is an error only if it is reached.
-/
import CsvQuery.Condition.Compare
import CsvQuery.Header

namespace CsvQuery

/-- One comparison of a field with a value. -/
structure Predicate where
  column : String
  operator : Comparison
  value : String
  valueType : Option ValueType
deriving DecidableEq, Repr

def Condition.predicate (c : Condition) : Predicate :=
  { column := c.ref.column, operator := c.operator, value := c.value, valueType := c.valueType }

inductive Link where
  | predicate (p : Predicate)
  | connective (c : Connective)
deriving DecidableEq, Repr

/-- The conditions of a query, from left to right. -/
structure Chain where
  links : List Link
deriving DecidableEq, Repr

namespace Chain

/-- The links behind a condition: its joiner, AND if it has none, in front of
the next condition.  The last joiner is dropped. -/
def linksAfter (joiner : Option Connective) : List Condition → List Link
  | [] => []
  | c :: cs =>
    .connective (joiner.getD .and) :: .predicate c.predicate :: linksAfter c.joiner cs

/-- The chain of a list of conditions. -/
def ofConditions : List Condition → Chain
  | [] => ⟨[]⟩
  | c :: cs => ⟨.predicate c.predicate :: linksAfter c.joiner cs⟩

def predicates (chain : Chain) : List Predicate :=
  chain.links.filterMap fun
    | .predicate p => some p
    | .connective _ => none

def connectives (chain : Chain) : List Connective :=
  chain.links.filterMap fun
    | .predicate _ => none
    | .connective c => some c

/-- The groups of the links, `current` being the group so far in reverse. -/
def groupsFrom (current : List Predicate) : List Link → List (List Predicate)
  | [] => if current.isEmpty then [] else [current.reverse]
  | .predicate p :: links => groupsFrom (p :: current) links
  | .connective .and :: links => groupsFrom current links
  | .connective .or :: links => current.reverse :: groupsFrom [] links

/-- The predicates between the ORs. -/
def groups (chain : Chain) : List (List Predicate) :=
  groupsFrom [] chain.links

end Chain

/-! ## Rows -/

def Predicate.holds (index : ColumnIndex) (row : Row) (p : Predicate) :
    Except ResolveError Bool :=
  match index.position? p.column with
  | none => .error (.unknownColumn p.column)
  | some position =>
    match row[position]? with
    | none => .error (.missingField p.column position row.length)
    | some field => compareField p.column field p.operator p.value p.valueType

/-- Do all predicates hold?  The first that fails or cannot be decided
settles it. -/
def allHold (index : ColumnIndex) (row : Row) :
    List Predicate → Except ResolveError Bool
  | [] => .ok true
  | p :: ps =>
    match p.holds index row with
    | .error e => .error e
    | .ok false => .ok false
    | .ok true => allHold index row ps

/-- Does some group hold?  The first that holds or cannot be decided settles
it. -/
def anyHolds (index : ColumnIndex) (row : Row) :
    List (List Predicate) → Except ResolveError Bool
  | [] => .ok false
  | group :: groups =>
    match allHold index row group with
    | .error e => .error e
    | .ok true => .ok true
    | .ok false => anyHolds index row groups

/-- Does a row satisfy a chain?  Every row satisfies the empty one. -/
def Chain.holds (chain : Chain) (index : ColumnIndex) (row : Row) :
    Except ResolveError Bool :=
  if chain.links.isEmpty then .ok true else anyHolds index row chain.groups

end CsvQuery
