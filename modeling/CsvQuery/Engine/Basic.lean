/-
The query engine: from a query text to its outcome.

The engine keeps the header of every file it has read, under the table name
of the query; a header is used again as long as the name stands for the same
path.  A run is: read the query, get the header, check the columns, search the
rows as the one job of a pool, and cut the result to the most rows allowed.
-/
import CsvQuery.Query.Parse
import CsvQuery.Search
import CsvQuery.Scheduler.Basic
import CsvQuery.Engine.Settings

namespace CsvQuery

/-- The answer to a query.  With errors there is nothing else in it. -/
structure Outcome where
  selectedColumns : List String
  allColumns : List String
  rows : List ResultRow
  errors : List QueryError
  deadlineExceeded : Bool
deriving DecidableEq, Repr

def Outcome.failed (errors : List QueryError) : Outcome :=
  { selectedColumns := [], allColumns := [], rows := [], errors, deadlineExceeded := false }

/-- Headers by table name, each name once. -/
structure HeaderCache where
  entries : List (String × Header)
deriving DecidableEq, Repr

namespace HeaderCache

/-- No headers. -/
def empty : HeaderCache := ⟨[]⟩

def find? (c : HeaderCache) (table : String) : Option Header :=
  c.entries.lookup table

def erase (c : HeaderCache) (table : String) : HeaderCache :=
  ⟨c.entries.filter fun e => e.1 != table⟩

def insert (c : HeaderCache) (table : String) (h : Header) : HeaderCache :=
  ⟨(table, h) :: (c.erase table).entries⟩

/-- The table names, sorted. -/
def tables (c : HeaderCache) : List String :=
  (c.entries.map Prod.fst).mergeSort fun a b => compare a b != .gt

/-- The header kept for a query, if it is that of the query's path. -/
def header? (c : HeaderCache) (q : Query) : Option Header :=
  (c.find? q.table).filter fun h => h.path.sameAs q.path

end HeaderCache

structure Engine where
  settings : Settings
  cache : HeaderCache
deriving DecidableEq, Repr

namespace Engine

/-- An engine that has read nothing. -/
def new (settings : Settings) : Engine := { settings, cache := .empty }

/-- The number of the only worker of a run. -/
def searchWorker : WorkerId := 1

/-- The columns a query needs and the header lacks: those selected, then
those of the sort order. -/
def missingColumns (h : Header) (q : Query) : List String :=
  (q.selectedNames ++ q.sortNames).filter fun name => (h.position? name).isNone

/-- The search of a query over a file with the given header. -/
def searchOf (h : Header) (q : Query) (selection : Selection) : Search :=
  { selection, index := .ofHeader h, chain := .ofConditions q.conditions,
    constraints := q.constraints }

/-- Run one job in a pool of its own. -/
def runJob (timeout : Nat) (job : WorkerId → Job) :
    Except QueryError (List JobResult) := do
  let pool ← (Scheduler.new timeout timeout).schedule searchWorker
  let pool ← pool.send searchWorker ⟨job, .run⟩
  let pool ← pool.start
  pool.results.1

def gatherRows (results : List JobResult) : List ResultRow :=
  results.flatMap fun r => if r.errors.isEmpty then r.rows else []

/-- The rows that a result may have. -/
def cutRows {α : Type} (maxRows : Option Nat) (rows : List α) : List α :=
  match maxRows with
  | none => rows
  | some n => rows.take n

/-- The answer to a query over a file with the given header. -/
def answer (files : Files) (settings : Settings) (timeout : Nat) (h : Header)
    (q : Query) : Except (List QueryError) Outcome :=
  match missingColumns h q with
  | [] => do
    let selection ← (Selection.ofItems h q.select).mapError ([·])
    let source ← (CsvSource.ofFile files q.path).mapError fun e => [.source e]
    let results ← (runJob timeout ((searchOf h q selection).job source.stream)).mapError ([·])
    match results.flatMap JobResult.errors with
    | [] =>
      .ok
        { selectedColumns := selection.names
          allColumns := h.names
          rows := cutRows settings.maxRows (gatherRows results)
          errors := []
          deadlineExceeded := results.any JobResult.deadlineExceeded }
    | errors => .error errors
  | missing => .error (missing.map .unknownColumn)

def outcomeOf : Except (List QueryError) Outcome → Outcome
  | .ok outcome => outcome
  | .error errors => .failed errors

/-- The header for a query, kept or read, and the cache that keeps it. -/
def headerFor (files : Files) (cache : HeaderCache) (q : Query) :
    Except SourceError Header × HeaderCache :=
  match cache.header? q with
  | some h => (.ok h, cache)
  | none =>
    match Header.read files q.path with
    | .ok h => (.ok h, cache.insert q.table h)
    | .error e => (.error e, cache)

/-- Run a query text with the given time in milliseconds. -/
def runWithin (timeout : Nat) (files : Files) (sql : String)
    (e : Engine) : Outcome × Engine :=
  match Query.parse files sql with
  | .error errors => (.failed (errors.map .grammar), e)
  | .ok q =>
    match headerFor files e.cache q with
    | (.error error, cache) => (.failed [.source error], { e with cache })
    | (.ok h, cache) =>
      (outcomeOf (answer files e.settings timeout h q), { e with cache })

def run (files : Files) (sql : String) (e : Engine) : Outcome × Engine :=
  runWithin e.settings.timeout files sql e

/-- Run several query texts, whose outcomes do not depend on each other. -/
def runAll (files : Files) : List String → Engine → List Outcome × Engine
  | [], e => ([], e)
  | sql :: sqls, e =>
    let (outcome, e) := e.run files sql
    let (outcomes, e) := runAll files sqls e
    (outcome :: outcomes, e)

/-- Forget the header of a table; tells whether there was one. -/
def invalidate (table : String) (e : Engine) : Bool × Engine :=
  ((e.cache.find? table).isSome, { e with cache := e.cache.erase table })

def clearCache (e : Engine) : Engine := { e with cache := .empty }

end Engine
end CsvQuery
