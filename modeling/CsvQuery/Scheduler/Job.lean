/-
Jobs, deadlines and results.

A job is what a worker can observe of a computation: it asks whether its
deadline is done, may cancel the deadline, and ends with a result or a panic.
What it computes in between depends on nothing but the answers, so any
interleaving of several jobs is an interleaving of these three steps.
-/
import CsvQuery.Selection

namespace CsvQuery

/-- A bound on a run: it is done once cancelled, or once its time is up. -/
structure Deadline where
  cancelled : Bool
  expired : Bool
deriving DecidableEq, Repr

namespace Deadline

/-- The deadline of a run with the given time.  Without any time it has
expired from the start. -/
def within (timeout : Nat) : Deadline :=
  { cancelled := false, expired := timeout == 0 }

def done (d : Deadline) : Bool := d.cancelled || d.expired

def cancel (d : Deadline) : Deadline := { d with cancelled := true }

def expire (d : Deadline) : Deadline := { d with expired := true }

def timeLeft (d : Deadline) : Bool := !d.expired

end Deadline

/-- What a worker delivers. -/
structure JobResult where
  id : WorkerId
  rows : List ResultRow
  errors : List QueryError
  deadlineExceeded : Bool
deriving DecidableEq, Repr

namespace JobResult

/-- Rows, and all of them. -/
def ofRows (id : WorkerId) (rows : List ResultRow) : JobResult :=
  { id, rows, errors := [], deadlineExceeded := false }

def failed (id : WorkerId) (error : QueryError) : JobResult :=
  { id, rows := [], errors := [error], deadlineExceeded := false }

/-- What a worker delivers when it never took up its job. -/
def abandoned (id : WorkerId) : JobResult :=
  { id, rows := [], errors := [], deadlineExceeded := true }

end JobResult

inductive Ending where
  | returned (result : JobResult)
  | panicked
deriving DecidableEq, Repr

/-- What a worker delivers for an ending. -/
def Ending.result (id : WorkerId) : Ending → JobResult
  | .returned result => result
  | .panicked => .failed id (.jobPanicked id)

/-- A job, from now on. -/
inductive Job where
  | ends (ending : Ending)
  /-- Ask whether the deadline is done. -/
  | asks (next : Bool → Job)
  /-- Cancel the deadline. -/
  | cancels (next : Job)

namespace Job

/-- How a job ends if its deadline is done from question number `budget + 1`
on, and never without a budget. -/
def endWithin : Option Nat → Job → Ending
  | _, .ends ending => ending
  | none, .asks next => endWithin none (next false)
  | some 0, .asks next => endWithin (some 0) (next true)
  | some (n + 1), .asks next => endWithin (some n) (next false)
  | _, .cancels next => endWithin (some 0) next

end Job
end CsvQuery
