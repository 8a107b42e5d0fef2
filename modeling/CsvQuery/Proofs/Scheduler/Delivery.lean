/-
One result for every worker.

A pool is set up, started and left to itself.  Whatever happens then, in
whatever order, every worker invokes its own job at most once, and when all
tasks are over the results hold one entry for each: what its job returned, a
report of its panic, or an abandoned result.  That some workers are missing at
the end is never reported.

The values of the workers are read off the accounts of the pool; that they come
in any order is all a queue of independent workers can promise.
-/
import CsvQuery.Proofs.Scheduler.Settling

namespace CsvQuery.Scheduler

section
variable {value : WorkerId → JobResult} {setup log : List Note} {s : Scheduler}

/-- A pool that has workers with jobs can be started. -/
theorem start_eq_ok (balanced : Accounts value setup s)
    (notStarted : s.started = false) (workers : s.workers ≠ [])
    (jobs : ∀ w ∈ s.workers, w.hasJob = true) :
    s.start = .ok
      { s with
        workers := s.workers.map fun w => { w with stage := .waiting }
        started := true
        timer := true } := by
  have hcollected : s.collected = false := by
    rw [Bool.eq_false_iff]
    intro hcollected
    cases notStarted.symm.trans (balanced.collected hcollected).1
  have hopen : s.queueOpen = true := by
    rw [balanced.queueOpen, hcollected]
    rfl
  have hjobs : (s.workers.find? fun w => !w.hasJob) = none := by
    rw [List.find?_eq_none]
    intro w hw
    simp [jobs w hw]
  simp [start, notStarted, workers, hjobs, hopen]

/-- When all tasks are over, every worker has been counted and has handed
over its value. -/
theorem collect_of_isOver (balanced : Accounts value log s)
    (ended : s.isOver = true) (collected : s.collected = false) :
    s.collect.1 = .ok s.queue ∧
    s.queue.Perm (s.workers.map fun w => value w.id) := by
  have hstage : ∀ w ∈ s.workers, w.stage = .counted :=
    fun w hw => stage_of_isOver ended hw
  constructor
  · have hcount : s.completed = s.workers.length := by
      rw [balanced.completed, List.countP_eq_length]
      exact List.all_eq_true.mp ended
    unfold collect
    rw [if_pos hcount]
  · have hall : s.workers.filter (fun w => w.stage.handedOver) = s.workers := by
      rw [List.filter_eq_self]
      intro w hw
      rw [hstage w hw]
      rfl
    have hqueue := balanced.queue collected
    rw [handedOver, hall] at hqueue
    exact hqueue

/-- The results of a started pool never report that workers are missing. -/
theorem results_ne_unfinished (balanced : Accounts value log s)
    (started : s.started = true) (finished total : Nat) :
    s.results.1 ≠ .error (.scheduler (.unfinished finished total)) := by
  intro herror
  cases hcollected : s.collected with
  | true =>
      simp only [results, started, hcollected] at herror
      cases herror
  | false =>
      obtain ⟨more, s', run, hover, -, hcollected', hresults⟩ :=
        results_runs balanced started hcollected
      obtain ⟨value', balanced'⟩ := balanced.runs run
      obtain ⟨hok, -⟩ := collect_of_isOver balanced' hover hcollected'
      rw [hresults, hok] at herror
      cases herror

/-- What a worker has done since the start, given what was sent to it before. -/
theorem story_since_start {w : Worker} {dispatch : Dispatch}
    (balanced : Accounts value (setup ++ log) s) (started : s.started = true)
    (hw : w ∈ s.workers) (sent : story setup w.id = [.sent dispatch]) :
    InvokesOnce dispatch (story log w.id) := by
  rcases (balanced.each w hw).idle_or_serves with ⟨-, hnot, -⟩ | ⟨sent', done, hserves, honce⟩
  · cases hnot.symm.trans started
  · have hstory := hserves.story
    rw [story_append, sent, List.singleton_append] at hstory
    cases hstory
    exact honce

/-- What a worker whose task is over has delivered. -/
theorem delivers_of_isOver {w : Worker} {dispatch : Dispatch}
    (balanced : Accounts value (setup ++ log) s) (ended : s.isOver = true)
    (hw : w ∈ s.workers) (sent : story setup w.id = [.sent dispatch]) :
    Delivers s.deadline.cancelled w.id dispatch (story log w.id)
      (value w.id) := by
  obtain ⟨sent', done, hserves, hdelivers⟩ :=
    balanced.delivers hw (List.all_eq_true.mp ended w hw)
  have hstory := hserves.story
  rw [story_append, sent, List.singleton_append] at hstory
  cases hstory
  exact hdelivers

end

/-- Once started, a pool of workers with jobs delivers exactly one result for
each of them, whatever happens. -/
theorem every_worker_delivers_once {timeout beside : Nat} {setup : List Note}
    {s₀ : Scheduler} (prepared : Runs (.new timeout beside) setup s₀)
    (notStarted : s₀.started = false) (workers : s₀.workers ≠ [])
    (jobs : ∀ w ∈ s₀.workers, w.hasJob = true) :
    ∃ s₁, s₀.start = .ok s₁ ∧ ∀ log s, Runs s₁ log s →
      -- No job is invoked twice, and none by a worker it was not sent to.
      (∀ id, story log id = [] ∨
        ∃ dispatch, story setup id = [.sent dispatch] ∧
          InvokesOnce dispatch (story log id)) ∧
      (∀ finished total,
        s.results.1 ≠ .error (.scheduler (.unfinished finished total))) ∧
      -- Asked for its results too early, the pool runs on to its end.
      (s.collected = false →
        ∃ more s', Runs s more s' ∧ s'.isOver = true ∧ s'.collected = false ∧
        s.results = s'.results) ∧
      (s.isOver = true → s.collected = false →
        ∃ entries, s.results.1 = .ok entries ∧ ∃ value : WorkerId → JobResult,
          entries.Perm (s₀.workers.map fun w => value w.id) ∧
          (s₀.workers.map Worker.id).Nodup ∧
          ∀ w ∈ s₀.workers, ∃ dispatch, story setup w.id = [.sent dispatch] ∧
            Delivers s.deadline.cancelled w.id dispatch (story log w.id)
              (value w.id)) := by
  obtain ⟨value₀, balanced₀⟩ :=
    (accounts_new (fun id => .abandoned id) timeout beside).runs prepared
  rw [List.nil_append] at balanced₀
  have hstart := start_eq_ok balanced₀ notStarted workers jobs
  refine ⟨_, hstart, ?_⟩
  intro log s run
  obtain ⟨hids, started⟩ := run.samePool rfl
  obtain ⟨value, balanced⟩ := (balanced₀.start notStarted jobs).runs run
  rw [List.map_map] at hids
  have hids : s.workers.map Worker.id = s₀.workers.map Worker.id := hids
  refine ⟨?_, results_ne_unfinished balanced started, ?_, ?_⟩
  · intro id
    by_cases hid : id ∈ s₀.workers.map Worker.id
    · obtain ⟨w₀, hw₀, rfl⟩ := List.mem_map.mp hid
      obtain ⟨w, hw, heq⟩ := List.mem_map.mp (hids ▸ hid)
      obtain ⟨dispatch, -, hsent⟩ := balanced₀.waits notStarted hw₀ (jobs w₀ hw₀)
      rw [← heq] at hsent ⊢
      exact .inr ⟨dispatch, hsent, story_since_start balanced started hw hsent⟩
    · refine .inl ?_
      have hsilent : story (setup ++ log) id = [] := by
        refine balanced.silent id ?_
        intro w hw heq
        exact hid (hids ▸ heq ▸ List.mem_map_of_mem hw)
      rw [story_append] at hsilent
      exact (List.append_eq_nil_iff.mp hsilent).2
  · intro collected
    obtain ⟨more, s', hrun, hover, hstarted, hcollected, hresults⟩ :=
      results_runs balanced started collected
    refine ⟨more, s', hrun, hover, hcollected, ?_⟩
    rw [hresults, results_of_isOver hstarted hcollected hover]
  · intro ended collected
    obtain ⟨hok, hqueue⟩ := collect_of_isOver balanced ended collected
    refine ⟨s.queue, ?_, value, ?_, balanced₀.ids, ?_⟩
    · rw [results_of_isOver started collected ended]
      exact hok
    · have hvalues : s.workers.map (fun w => value w.id) = s₀.workers.map fun w => value w.id := by
        have hmap := congrArg (List.map value) hids
        rw [List.map_map, List.map_map] at hmap
        exact hmap
      rw [← hvalues]
      exact hqueue
    · intro w₀ hw₀
      obtain ⟨w, hw, heq⟩ := List.mem_map.mp (hids ▸ List.mem_map_of_mem hw₀)
      obtain ⟨dispatch, -, hsent⟩ := balanced₀.waits notStarted hw₀ (jobs w₀ hw₀)
      refine ⟨dispatch, hsent, ?_⟩
      rw [← heq] at hsent ⊢
      exact delivers_of_isOver balanced ended hw hsent

/-- A job that returns no rows, and says whether its deadline was done. -/
def askingJob : Dispatch :=
  { job := fun id => .asks fun done => .ends (.returned
      { JobResult.ofRows id [] with deadlineExceeded := done })
    watched := .run }

/-- A job that cancels the run and panics. -/
def panickingJob : Dispatch :=
  { job := fun _ => .cancels (.ends .panicked), watched := .run }

/-- Three workers and their jobs. -/
def trio : List Event :=
  [.schedule 2, .schedule 1, .schedule 3,
    .send 1 askingJob, .send 2 panickingJob, .send 3 askingJob]

/-- Two of the three pick up their jobs before one of these cancels the run. -/
def trioActs : List Event :=
  [.act (.pickUp 1), .act (.pickUp 2), .act (.work 2), .act (.work 1), .act (.abandon 3),
    .act (.work 2), .act (.mark 2), .act (.publish 2), .act (.mark 3), .act (.publish 3),
    .act (.work 1), .act (.mark 1), .act (.count 3), .act (.publish 1), .act (.count 1),
    .act (.count 2)]

theorem one_of_each_ending :
    ∃ setup s₀, play (.new 1 1) trio = some (setup, s₀) ∧ s₀.started = false ∧
      s₀.workers ≠ [] ∧ (∀ w ∈ s₀.workers, w.hasJob = true) ∧
      ∃ s₁ log s, s₀.start = .ok s₁ ∧ s₁.play trioActs = some (log, s) ∧
        s.isOver = true ∧
        s.collected = false ∧ ∃ value : WorkerId → JobResult,
          Delivers true 1 askingJob [.invoked askingJob,
            .answered true] (value 1) ∧
          Delivers true 2 panickingJob [.invoked panickingJob] (value 2) ∧
          Delivers true 3 askingJob [] (value 3) ∧
          ∃ entries, s.results.1 = .ok entries ∧
            entries.Perm [value 1, value 2, value 3] ∧
            entries = [.failed 2 (.jobPanicked 2), .abandoned 3,
              { JobResult.ofRows 1 [] with deadlineExceeded := true }] := by
  have prepared : Runs (.new 1 1) _ _ := runs_of_play trio rfl
  have hworkers : ∀ w₁ w₂ w₃ : Worker, [w₁, w₂, w₃] ≠ [] := by
    intro w₁ w₂ w₃ h
    cases h
  have hjobs : ∀ w₁ w₂ w₃ : Worker, w₁.hasJob = true → w₂.hasJob = true → w₃.hasJob = true →
      ∀ w ∈ [w₁, w₂, w₃], w.hasJob = true := by
    intro w₁ w₂ w₃ h₁ h₂ h₃
    simp [h₁, h₂, h₃]
  refine ⟨_, _, rfl, rfl, hworkers _ _ _, hjobs _ _ _ rfl rfl rfl, ?_⟩
  obtain ⟨s₁, hstart, hrun⟩ := every_worker_delivers_once prepared rfl (hworkers _ _ _)
    (hjobs _ _ _ rfl rfl rfl)
  cases hstart
  obtain ⟨-, -, -, hover⟩ := hrun _ _ (runs_of_play trioActs rfl)
  obtain ⟨entries, hentries, value, hperm, -, heach⟩ := hover rfl rfl
  refine ⟨_, _, _, rfl, rfl, rfl, rfl, value, ?_, ?_, ?_, entries, hentries, hperm, ?_⟩
  · obtain ⟨dispatch, hsent, hdelivers⟩ := heach _ (.head _)
    cases hsent
    exact hdelivers
  · obtain ⟨dispatch, hsent, hdelivers⟩ := heach _ (.tail _ (.head _))
    cases hsent
    exact hdelivers
  · obtain ⟨dispatch, hsent, hdelivers⟩ := heach _ (.tail _ (.tail _ (.head _)))
    cases hsent
    exact hdelivers
  · cases hentries
    rfl

end CsvQuery.Scheduler
