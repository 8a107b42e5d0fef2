/-
Everything that can go wrong with a query, from its text to its result.
-/
import CsvQuery.Query.Error
import CsvQuery.Condition.Compare
import CsvQuery.Source

namespace CsvQuery

abbrev WorkerId := Nat

/-- A call that the scheduler refuses. -/
inductive SchedulerFault where
  | scheduledAfterStart (id : WorkerId)
  | inboxClosed (id : WorkerId)
  | alreadyStarted
  | noWorkers
  | noJob (id : WorkerId)
  | queueClosed
  | notStarted
  | alreadyCollected
  | unfinished (finished scheduled : Nat)
deriving DecidableEq, Repr

def SchedulerFault.message : SchedulerFault → String
  | .scheduledAfterStart id => "cannot schedule worker " ++ toString id ++ " after start"
  | .inboxClosed id => "worker " ++ toString id ++ " is no longer accepting jobs"
  | .alreadyStarted => "scheduler already started"
  | .noWorkers => "no workers scheduled"
  | .noJob id => "worker " ++ toString id ++ " has no job"
  | .queueClosed => "result queue already closed"
  | .notStarted => "results requested before start"
  | .alreadyCollected => "results already collected"
  | .unfinished finished scheduled =>
    toString finished ++ " of " ++ toString scheduled ++ " workers finished"

inductive QueryError where
  | grammar (error : GrammarError)
  | resolve (error : ResolveError)
  | source (error : SourceError)
  | unknownColumn (column : String)
  | duplicateWorker (id : WorkerId)
  | unknownWorker (id : WorkerId)
  | jobAlreadySent (id : WorkerId)
  | scheduler (fault : SchedulerFault)
  | missingProjection (position : Nat)
  | jobPanicked (id : WorkerId)
  | job (id : WorkerId) (cause : QueryError)
deriving DecidableEq, Repr

def QueryError.message : QueryError → String
  | .grammar error => "Grammar error: " ++ error.message
  | .resolve error => "Evaluation error: " ++ error.message
  | .source error => "Source error: " ++ error.message
  | .unknownColumn column => "Column not found in file header: " ++ column
  | .duplicateWorker id => "Worker with id " ++ toString id ++ " already scheduled"
  | .unknownWorker id => "Worker with id " ++ toString id ++ " is not scheduled"
  | .jobAlreadySent id => "Worker with id " ++ toString id ++ " already has a job"
  | .scheduler fault => "Scheduler error: " ++ fault.message
  | .missingProjection position => "Column not found for position " ++ toString position
  | .jobPanicked id => "Job " ++ toString id ++ " panicked"
  | .job id cause => "Job " ++ toString id ++ " failed: " ++ cause.message

/-- Does the error come from the query text? -/
def QueryError.isGrammar : QueryError → Bool
  | .grammar _ => true
  | _ => false

end CsvQuery
