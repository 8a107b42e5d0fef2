/-
Runs whose time may be up at any moment.

`runWithin` lets a run finish, or start with its time over.  Time can run out in
between as well: before the worker picks up the search, between two of its
reads, while its result waits on the queue.  `CanDeliver` has all results that
the pool of a run can hand to its owner, over every interleaving of its worker
with the clock, and `outcomeBy` is the outcome of a query whose pool delivers
given ones.

No such run gives more than two kinds of results (`CanDeliver.searched`): that
of the search stopped after some number of reads, as a search does not go on
once it was told that its deadline is done (`Job.Heeds`), or that of a search
which was never taken up.
-/
import CsvQuery.Proofs.Engine.Transparency
import CsvQuery.Proofs.Scheduler.Delivery
import CsvQuery.Proofs.Scheduler.SingleRun
import CsvQuery.Proofs.Search.Deadline

namespace CsvQuery

/-! ## Jobs that heed their deadline -/

/-- A job that ends once it is told that its deadline is done, and never
cancels it. -/
inductive Job.Heeds : Job → Prop
  | ends (ending : Ending) : Heeds (.ends ending)
  | asks {next : Bool → Job} {ending : Ending} :
      next true = .ends ending → Heeds (next false) → Heeds (.asks next)

/-- Whatever such a job is told, it ends as if its deadline had been done
from some question on. -/
theorem Job.Heeds.exists_budget {job : Job} (h : job.Heeds) :
    ∀ {answers : List Bool}
    {ending : Ending}, job.endingOn answers = some ending →
      ∃ budget, job.endWithin budget = ending := by
  induction h with
  | ends ending =>
      intro answers ending' hend
      cases answers with
      | nil =>
          cases hend
          exact ⟨none, rfl⟩
      | cons done answers => cases hend
  | @asks next ending htrue _ ih =>
      intro answers ending' hend
      match answers with
      | [] => cases hend
      | true :: answers =>
          rw [Job.endingOn, htrue] at hend
          have hzero : (Job.asks next).endWithin (some 0) = ending := by
            rw [Job.endWithin, htrue]
            rfl
          cases answers with
          | nil =>
              cases hend
              exact ⟨some 0, hzero⟩
          | cons done answers => cases hend
      | false :: answers =>
          obtain ⟨budget, hbudget⟩ := ih hend
          refine ⟨budget.map (· + 1), ?_⟩
          rw [← hbudget]
          cases budget <;> rfl

namespace Search

section
variable {s : Search} {id : WorkerId}

theorem finish_heeds
    (found : Except QueryError Found) : (finish id found).Heeds := by
  cases found <;> exact .ends _

theorem unlessDone_heeds (found : Except QueryError Found) {next : Job}
    (h : next.Heeds) :
    (unlessDone id found next).Heeds := by
  cases found with
  | error e => exact .asks rfl h
  | ok found => exact .asks rfl h

theorem streamFrom_heeds (items : RowStream) :
    ∀ (skip : Nat) (room : Option Nat) (taken : List ResultRow),
      (s.streamFrom id skip room taken items).Heeds := by
  induction items with
  | nil => exact fun _ _ _ => .asks rfl (.ends _)
  | cons item items ih =>
      intro skip room taken
      cases hfailure : s.failure? item with
      | some e =>
          rw [streamFrom_fails _ _ _ _ hfailure]
          exact unlessDone_heeds _ (finish_heeds _)
      | none =>
        cases hmatch : s.match? item with
        | none =>
            rw [streamFrom_passes _ _ _ _ hfailure hmatch]
            exact unlessDone_heeds _ (ih _ _ _)
        | some row =>
            obtain ⟨fields, hproject⟩ := s.selection.project_isOk row
            match skip, room with
            | skip + 1, room =>
                rw [streamFrom_skips _ _ _ _ hmatch]
                exact unlessDone_heeds _ (ih _ _ _)
            | 0, some 0 =>
                obtain ⟨rfl, haccepts⟩ := s.match?_eq_some_iff.mp hmatch
                rw [streamFrom.eq_def]
                simp only [haccepts, hproject]
                exact unlessDone_heeds _ (finish_heeds _)
            | 0, some 1 =>
                rw [streamFrom_fills _ _ hmatch hproject]
                exact unlessDone_heeds _ (finish_heeds _)
            | 0, none =>
                rw [streamFrom_takes _ _ _ hmatch hproject (by simp) (by simp)]
                exact unlessDone_heeds _ (ih _ _ _)
            | 0, some (room + 2) =>
                rw [streamFrom_takes _ _ _ hmatch hproject (by simp) (by simp)]
                exact unlessDone_heeds _ (ih _ _ _)

theorem sortFrom_heeds (order : SortOrder) (items : RowStream) :
    ∀ matching : List Row,
      (s.sortFrom id order matching items).Heeds := by
  induction items with
  | nil =>
      intro matching
      rw [sortFrom]
      cases s.sorted order matching.reverse <;> exact .asks rfl (.ends _)
  | cons item items ih =>
      intro matching
      cases hfailure : s.failure? item with
      | some e =>
          rw [sortFrom_fails _ _ _ hfailure]
          exact unlessDone_heeds _ (finish_heeds _)
      | none =>
        cases hmatch : s.match? item with
        | none =>
            rw [sortFrom_passes _ _ _ hfailure hmatch]
            exact unlessDone_heeds _ (ih _)
        | some row =>
            rw [sortFrom_keeps _ _ _ hmatch]
            exact unlessDone_heeds _ (ih _)

/-- A search does not go on once its deadline is done. -/
theorem job_heeds (s : Search) (items : RowStream)
    (id : WorkerId) : (s.job items id).Heeds := by
  unfold job
  split
  · exact sortFrom_heeds _ _ _
  · split
    · exact finish_heeds _
    · exact streamFrom_heeds _ _ _ _

end
end Search

namespace Engine

/-! ## What a pool can deliver -/

/-- What the owner of the pool of a run can get for a job: the fault of a
call that is refused, or the results after any run of the started pool. -/
inductive CanDeliver (timeout : Nat) (job : WorkerId → Job) :
    Except QueryError (List JobResult) → Prop
  | refused {error : QueryError} :
      startedPool timeout job = .error error →
        CanDeliver timeout job (.error error)
  | delivered {pool s : Scheduler} {log : List Scheduler.Note} :
      startedPool timeout job = .ok pool → Scheduler.Runs pool log s →
        s.isOver = true →
      s.collected = false → CanDeliver timeout job s.results.1

section
variable {timeout : Nat} {job : WorkerId → Job}

/-- The calls that set up the pool of a run. -/
theorem runs_waitingPool (timeout : Nat) (job : WorkerId → Job) :
    Scheduler.Runs (.new timeout timeout) [⟨searchWorker, .sent ⟨job, .run⟩⟩]
      (Scheduler.waitingPool timeout searchWorker job) :=
  Scheduler.runs_of_play
    [.schedule searchWorker, .send searchWorker ⟨job, .run⟩, .start] rfl

/-- A pool left to itself delivers what some run of it does. -/
theorem canDeliver_runJob (timeout : Nat) (job : WorkerId → Job) :
    CanDeliver timeout job (runJob timeout job) := by
  obtain ⟨value, balanced⟩ := Scheduler.exists_accounts (runs_waitingPool timeout job)
  obtain ⟨more, s, run, hover, hstarted, hcollected, hresults⟩ :=
    Scheduler.results_runs balanced rfl rfl
  have hrun : runJob timeout job = s.results.1 := by
    rw [runJob_eq_results, Scheduler.results_of_isOver hstarted hcollected hover,
      hresults]
  rw [hrun]
  exact .delivered (startedPool_eq timeout job) run hover hcollected

/-- The owner always gets one result: an abandoned one, or one for an ending
of the job. -/
theorem CanDeliver.exists_result {results : Except QueryError (List JobResult)}
    (h : CanDeliver timeout job results) : ∃ result, results = .ok [result] ∧
      (result = .abandoned searchWorker ∨ ∃ answers ending,
        (job searchWorker).endingOn answers = some ending ∧
        result = ending.result searchWorker) := by
  cases h with
  | refused hpool => cases hpool.symm.trans (startedPool_eq timeout job)
  | @delivered pool s log hpool run hover hcollected =>
      cases hpool.symm.trans (startedPool_eq timeout job)
      obtain ⟨value, balanced⟩ :=
        Scheduler.exists_accounts ((runs_waitingPool timeout job).trans run)
      obtain ⟨hids, hstarted⟩ := run.samePool rfl
      obtain ⟨hcollect, hqueue⟩ := Scheduler.collect_of_isOver balanced hover hcollected
      obtain ⟨w, hworkers, hid⟩ : ∃ w, s.workers = [w] ∧ w.id = searchWorker :=
        List.map_eq_singleton_iff.mp hids
      rw [hworkers, List.map_singleton, hid] at hqueue
      have hw : w ∈ s.workers := by simp [hworkers]
      have hsent : Scheduler.story [⟨searchWorker, .sent ⟨job, .run⟩⟩] w.id
          = [.sent ⟨job, .run⟩] := by
        rw [hid]
        rfl
      have hdelivers := Scheduler.delivers_of_isOver balanced hover hw hsent
      rw [hid] at hdelivers
      refine ⟨value searchWorker, ?_, ?_⟩
      · rw [Scheduler.results_of_isOver hstarted hcollected hover, hcollect,
          List.perm_singleton.mp hqueue]
      · generalize Scheduler.story log searchWorker = deeds, value searchWorker = result
          at hdelivers ⊢
        cases hdelivers with
        | returned hending => exact .inr ⟨_, _, hending, rfl⟩
        | panicked hending => exact .inr ⟨_, _, hending, rfl⟩
        | abandoned => exact .inl rfl

/-- A search is stopped after some number of reads, or not at all, or it is
never taken up. -/
theorem CanDeliver.searched {s : Search} {items : RowStream}
    {results : Except QueryError (List JobResult)}
    (h : CanDeliver timeout (s.job items) results) :
    ∃ result, results = .ok [result] ∧ (result = .abandoned searchWorker ∨
      ∃ budget, result = s.run searchWorker budget items) := by
  obtain ⟨result, hresults, hresult⟩ := h.exists_result
  refine ⟨result, hresults, hresult.imp_right ?_⟩
  rintro ⟨answers, ending, hending, rfl⟩
  obtain ⟨budget, rfl⟩ := (s.job_heeds items searchWorker).exists_budget hending
  exact ⟨budget, rfl⟩

end

/-! ## Outcomes -/

/-- How the pool of a run delivers: the results that its owner gets for a
job. -/
abbrev Pool := (WorkerId → Job) → Except QueryError (List JobResult)

/-- The answer to a query, when its pool delivers the results. -/
def answerBy (pool : Pool) (files : Files) (settings : Settings) (h : Header)
    (q : Query) : Except (List QueryError) Outcome :=
  match missingColumns h q with
  | [] => do
    let selection ← (Selection.ofItems h q.select).mapError ([·])
    let source ← (CsvSource.ofFile files q.path).mapError fun e => [.source e]
    let results ← (pool ((searchOf h q selection).job source.stream)).mapError ([·])
    match results.flatMap JobResult.errors with
    | [] =>
      .ok
        { selectedColumns := selection.names
          allColumns := h.names
          rows := cutRows settings.maxRows (gatherRows results)
          errors := []
          deadlineExceeded := results.any JobResult.deadlineExceeded }
    | errors => .error errors
  | missing => .error (missing.map .unknownColumn)

theorem answerBy_runJob (timeout : Nat) (files : Files) (settings : Settings)
    (h : Header) (q : Query) :
    answerBy (runJob timeout) files settings h q
      = answer files settings timeout h q :=
  rfl

/-- Of a header only the names count. -/
theorem answerBy_congr {pool : Pool} {files : Files} {settings : Settings}
    {q : Query} {h h' : Header} (names : h.names = h'.names) :
    answerBy pool files settings h q = answerBy pool files settings h' q := by
  obtain ⟨path, names⟩ := h
  obtain ⟨path', names'⟩ := h'
  cases names
  rfl

namespace World

/-- The outcome of a query text, when the pool of its run delivers the
results. -/
def outcomeBy (pool : Pool) (w : World) (sql : String) : Outcome :=
  match Query.parse w.files sql with
  | .error errors => .failed (errors.map .grammar)
  | .ok q =>
    match (headerFor w.files w.engine.cache q).1 with
    | .error error => .failed [.source error]
    | .ok h => outcomeOf (answerBy pool w.files w.engine.settings h q)

/-- The outcomes that a query text can have, whenever the time of its run is
up. -/
def CanYield (w : World) (timeout : Nat) (sql : String) (o : Outcome) : Prop :=
  ∃ pool : Pool, (∀ job, CanDeliver timeout job (pool job)) ∧ w.outcomeBy pool sql = o

theorem outcomeBy_runJob (w : World) (timeout : Nat) (sql : String) :
    w.outcomeBy (runJob timeout) sql = w.outcome timeout sql := by
  unfold outcomeBy outcome runWithin
  cases Query.parse w.files sql with
  | error errors => rfl
  | ok q =>
      dsimp only
      rcases headerFor w.files w.engine.cache q with ⟨_ | _, _⟩ <;> rfl

/-- The outcome of a run that is left to itself is one of them. -/
theorem canYield_outcome (w : World) (timeout : Nat) (sql : String) :
    w.CanYield timeout sql (w.outcome timeout sql) :=
  ⟨runJob timeout, canDeliver_runJob timeout, w.outcomeBy_runJob timeout sql⟩

end World
end Engine
end CsvQuery
