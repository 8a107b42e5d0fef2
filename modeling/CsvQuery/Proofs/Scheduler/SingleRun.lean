/-
A pool with a single worker.

The result of its run is that of the job alone: nothing but the deadline is
there to interfere.  `endWithin` says what the job alone does; the pool's part
is to hand every answer of the deadline to the job and to carry the result
through marking, publishing and counting to its owner.
-/
import CsvQuery.Engine.Basic

namespace CsvQuery

/-- How many questions a job may still ask before the deadline is done. -/
def Deadline.budget (d : Deadline) : Option Nat :=
  if d.done then some 0 else none

namespace Job

end Job

namespace Scheduler

/-- The pool with a worker as its only one. -/
def alone (s : Scheduler) (w : Worker) : Scheduler := { s with workers := [w] }

section
variable (s : Scheduler) (w : Worker)

end

/-- The pool of a run, when its only worker waits for its job. -/
def waitingPool (timeout : Nat) (id : WorkerId)
    (job : WorkerId → Job) : Scheduler :=
  { Scheduler.new timeout timeout with started := true, timer := true }.alone
    { id, state := .scheduled, hasJob := true, inbox := .open (some ⟨job, .run⟩),
      stage := .waiting }

end Scheduler

namespace Engine

/-- The pool of a run, started on its job. -/
def startedPool (timeout : Nat)
    (job : WorkerId → Job) : Except QueryError Scheduler := do
  let pool ← (Scheduler.new timeout timeout).schedule searchWorker
  let pool ← pool.send searchWorker ⟨job, .run⟩
  pool.start

theorem startedPool_eq (timeout : Nat) (job : WorkerId → Job) :
    startedPool timeout job
      = .ok (Scheduler.waitingPool timeout searchWorker job) := by
  simp [startedPool, Scheduler.schedule, Scheduler.send, Scheduler.start, Scheduler.worker?,
    Scheduler.insertWorker, Scheduler.setWorker, Scheduler.waitingPool, Scheduler.alone,
    Scheduler.new, bind, Except.bind]

/-- A run hands out what its started pool delivers. -/
theorem runJob_eq_results (timeout : Nat) (job : WorkerId → Job) :
    runJob timeout job
      = (Scheduler.waitingPool timeout searchWorker job).results.1 := by
  have hpool : runJob timeout job = startedPool timeout job >>= fun pool => pool.results.1 := by
    simp only [runJob, startedPool, bind_assoc]
  rw [hpool, startedPool_eq]
  rfl

end Engine
end CsvQuery
