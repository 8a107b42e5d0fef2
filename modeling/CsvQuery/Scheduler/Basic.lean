/-
A pool of workers for one run.

Every scheduled worker has an inbox for one job.  After the start each worker
is a task of its own: it picks up its job, or abandons it when the run's
deadline was cancelled first; it works through the job, marks itself finished,
publishes its result on the common queue, and counts itself as completed.
`step` says what one such action does, so a run of the pool is a sequence of
actions and two runs of the same workers differ in their interleaving only.
The calls of the pool's owner are functions of their own.

Jobs follow the run's deadline, or a deadline beside it that the owner holds.
-/
import CsvQuery.Scheduler.Job

namespace CsvQuery

/-- What the owner sees of a worker. -/
inductive WorkerState where
  | unscheduled
  | scheduled
  | running
  | finished
deriving DecidableEq, Repr

/-- The deadline a job follows. -/
inductive Watched where
  /-- The run's own deadline. -/
  | run
  /-- The deadline beside it. -/
  | beside
deriving DecidableEq, Repr

/-- A job on its way to a worker. -/
structure Dispatch where
  job : WorkerId → Job
  watched : Watched

/-- The single slot in front of a worker. -/
inductive Inbox where
  | open (waiting : Option Dispatch)
  | closed

/-- How far the task of a worker has come. -/
inductive Stage where
  /-- There is no task yet. -/
  | idle
  /-- The task has not picked up its job. -/
  | waiting
  /-- The task is in the middle of its job. -/
  | working (job : Job) (watched : Watched)
  /-- The result is at hand. -/
  | ended (result : JobResult)
  /-- The worker is marked finished. -/
  | marked (result : JobResult)
  /-- The result is on the queue. -/
  | published
  /-- The worker is counted, and its task over. -/
  | counted

structure Worker where
  id : WorkerId
  state : WorkerState
  hasJob : Bool
  inbox : Inbox
  stage : Stage

/-- A pool of workers. -/
structure Scheduler where
  /-- The workers, in ascending order of their numbers. -/
  workers : List Worker
  deadline : Deadline
  beside : Deadline
  /-- The results published and not yet collected, oldest first. -/
  queue : List JobResult
  queueOpen : Bool
  /-- How many workers have been counted. -/
  completed : Nat
  started : Bool
  collected : Bool
  /-- Whether the timer that watches the deadline is running. -/
  timer : Bool

namespace Scheduler

/-- A pool without workers, and the time of its two deadlines. -/
def new (timeout besideTimeout : Nat) : Scheduler :=
  { workers := [], deadline := .within timeout, beside := .within besideTimeout, queue := [],
    queueOpen := true, completed := 0, started := false, collected := false, timer := false }

def worker? (s : Scheduler) (id : WorkerId) : Option Worker :=
  s.workers.find? fun w => w.id == id

def state (s : Scheduler) (id : WorkerId) : WorkerState :=
  match s.worker? id with
  | none => .unscheduled
  | some w => w.state

def scheduledCount (s : Scheduler) : Nat := s.workers.length

/-- Replace the worker with the number of `w`. -/
def setWorker (s : Scheduler) (w : Worker) : Scheduler :=
  { s with workers := s.workers.map fun old => if old.id = w.id then w else old }

def deadlineOf (s : Scheduler) : Watched → Deadline
  | .run => s.deadline
  | .beside => s.beside

def setDeadline (s : Scheduler) (d : Deadline) : Watched → Scheduler
  | .run => { s with deadline := d }
  | .beside => { s with beside := d }

/-! ## Calls of the owner -/

/-- A worker put among others, in the order of their numbers. -/
def insertWorker (w : Worker) : List Worker → List Worker
  | [] => [w]
  | old :: rest => if w.id < old.id then w :: old :: rest else old :: insertWorker w rest

def schedule (id : WorkerId) (s : Scheduler) : Except QueryError Scheduler :=
  if s.started then .error (.scheduler (.scheduledAfterStart id))
  else if (s.worker? id).isSome then .error (.duplicateWorker id)
  else
    let w : Worker :=
      { id, state := .scheduled, hasJob := false, inbox := .open none, stage := .idle }
    .ok { s with workers := insertWorker w s.workers }

def send (id : WorkerId) (dispatch : Dispatch) (s : Scheduler) :
    Except QueryError Scheduler :=
  match s.worker? id with
  | none => .error (.unknownWorker id)
  | some w =>
    if w.hasJob then .error (.jobAlreadySent id)
    else match w.inbox with
      | .open none =>
        .ok (s.setWorker { w with hasJob := true, inbox := .open (some dispatch) })
      | .open (some _) => .error (.jobAlreadySent id)
      | .closed => .error (.scheduler (.inboxClosed id))

/-- Start a task for every worker, and the timer. -/
def start (s : Scheduler) : Except QueryError Scheduler :=
  if s.started then .error (.scheduler .alreadyStarted)
  else if s.workers.isEmpty then .error (.scheduler .noWorkers)
  else match s.workers.find? fun w => !w.hasJob with
    | some w => .error (.scheduler (.noJob w.id))
    | none =>
      if s.queueOpen then
        .ok { s with
          workers := s.workers.map fun w => { w with stage := .waiting }
          started := true
          timer := true }
      else .error (.scheduler .queueClosed)

/-- Cancel the run's deadline. -/
def close (s : Scheduler) : Scheduler :=
  { s with deadline := s.deadline.cancel }

/-- Take the results of workers that are all through with their tasks. -/
def collect (s : Scheduler) : Except QueryError (List JobResult) × Scheduler :=
  let after := { s with queue := [], queueOpen := false, collected := true, timer := false }
  if s.completed = s.workers.length then (.ok s.queue, after)
  else (.error (.scheduler (.unfinished s.completed s.workers.length)), after)

/-! ## Actions of the workers -/

inductive Action where
  | pickUp (id : WorkerId)
  | abandon (id : WorkerId)
  /-- One step of the job. -/
  | work (id : WorkerId)
  | mark (id : WorkerId)
  | publish (id : WorkerId)
  | count (id : WorkerId)
  /-- The time of a deadline runs out. -/
  | expire (watched : Watched)
  /-- The timer notices and cancels the run's deadline. -/
  | ring
deriving DecidableEq, Repr

/-- Take up the job in the inbox.  A cancelled run comes first. -/
def pickUp (s : Scheduler) (w : Worker) : Option Scheduler :=
  match w.stage, w.inbox with
  | .waiting, .open (some d) =>
    if s.deadline.cancelled then none
    else some (s.setWorker
      { w with state := .running, inbox := .open none, stage := .working (d.job w.id) d.watched })
  | _, _ => none

/-- Leave the job in the inbox, as the run is cancelled. -/
def abandon (s : Scheduler) (w : Worker) : Option Scheduler :=
  match w.stage with
  | .waiting =>
    if s.deadline.cancelled then
      some (s.setWorker { w with stage := .ended (.abandoned w.id) })
    else none
  | _ => none

/-- Do one step of the job. -/
def work (s : Scheduler) (w : Worker) : Option Scheduler :=
  match w.stage with
  | .working (.ends ending) _ =>
    some (s.setWorker { w with stage := .ended (ending.result w.id) })
  | .working (.asks next) watched =>
    some (s.setWorker { w with stage := .working (next (s.deadlineOf watched).done) watched })
  | .working (.cancels next) watched =>
    some ((s.setDeadline (s.deadlineOf watched).cancel watched).setWorker
      { w with stage := .working next watched })
  | _ => none

def mark (s : Scheduler) (w : Worker) : Option Scheduler :=
  match w.stage with
  | .ended result => some (s.setWorker { w with state := .finished, stage := .marked result })
  | _ => none

/-- Put the result on the queue; a closed queue loses it. -/
def publish (s : Scheduler) (w : Worker) : Option Scheduler :=
  match w.stage with
  | .marked result =>
    let s := if s.queueOpen then { s with queue := s.queue ++ [result] } else s
    some (s.setWorker { w with stage := .published })
  | _ => none

/-- Count the worker and end its task, which closes its inbox. -/
def count (s : Scheduler) (w : Worker) : Option Scheduler :=
  match w.stage with
  | .published =>
    some ({ s with completed := s.completed + 1 }.setWorker
      { w with inbox := .closed, stage := .counted })
  | _ => none

/-- The pool after an action; none when the action is not possible. -/
def step (s : Scheduler) : Action → Option Scheduler
  | .pickUp id => (s.worker? id).bind s.pickUp
  | .abandon id => (s.worker? id).bind s.abandon
  | .work id => (s.worker? id).bind s.work
  | .mark id => (s.worker? id).bind s.mark
  | .publish id => (s.worker? id).bind s.publish
  | .count id => (s.worker? id).bind s.count
  | .expire watched => some (s.setDeadline (s.deadlineOf watched).expire watched)
  | .ring => if s.timer && s.deadline.expired then some s.close else none

/-! ## A whole run -/

/-- Take an action if it is possible. -/
def attempt (s : Scheduler) (a : Action) : Scheduler :=
  (s.step a).getD s

/-- Let a worker pick up its job, or abandon it. -/
def dispatchWorker (s : Scheduler) (id : WorkerId) : Scheduler :=
  (s.attempt (.pickUp id)).attempt (.abandon id)

/-- Let a worker do its job to the end. -/
def workThrough (id : WorkerId)
    (watched : Watched) : Job → Scheduler → Scheduler
  | .ends _, s => s.attempt (.work id)
  | .asks next, s =>
    workThrough id watched (next (s.deadlineOf watched).done) (s.attempt (.work id))
  | .cancels next, s => workThrough id watched next (s.attempt (.work id))

/-- Let a worker finish from wherever its task is. -/
def finishWorker (s : Scheduler) (id : WorkerId) : Scheduler :=
  let s :=
    match (s.worker? id).map Worker.stage with
    | some (.working job watched) => workThrough id watched job s
    | _ => s
  ((s.attempt (.mark id)).attempt (.publish id)).attempt (.count id)

/-- Let all workers run to their ends: first every worker picks up its job,
then they do their jobs one after the other. -/
def settle (s : Scheduler) : Scheduler :=
  let ids := s.workers.map Worker.id
  ids.foldl finishWorker (ids.foldl dispatchWorker s)

/-- Wait for all workers and take their results, oldest first. -/
def results (s : Scheduler) : Except QueryError (List JobResult) × Scheduler :=
  if !s.started then (.error (.scheduler .notStarted), s)
  else if s.collected then (.error (.scheduler .alreadyCollected), s)
  else s.settle.collect

end Scheduler
end CsvQuery
