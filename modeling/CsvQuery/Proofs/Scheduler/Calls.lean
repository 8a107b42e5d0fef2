/-
Calls of a pool's owner.

A call that returns an error leaves the pool as it was, whatever calls were
made and whatever the workers did before (`failure?` says what a call would
return now).  Several of the errors that the calls could return are never seen:
the inbox of a worker without a job is open and empty, so sending fails only
for an unknown worker and for one whose job was accepted before; the queue is
open until the results are taken; and the results, once waited for, are there.

What makes a start fail can be put right: it succeeds exactly for a pool that
has workers, all with jobs, and has not been started.
-/
import CsvQuery.Proofs.Scheduler.Delivery
import CsvQuery.Proofs.Scheduler.Lifecycle

namespace CsvQuery.Scheduler

/-- The error of an answer. -/
def errorOf? {α : Type} : Except QueryError α → Option QueryError
  | .ok _ => none
  | .error error => some error

/-- The error that an event returns if it happens now. -/
def failure? (s : Scheduler) : Event → Option QueryError
  | .schedule id => errorOf? (s.schedule id)
  | .send id dispatch => errorOf? (s.send id dispatch)
  | .start => errorOf? s.start
  | .results => errorOf? s.results.1
  | .cancel _ => none
  | .act _ => none

section
variable {value : WorkerId → JobResult} {log before : List Note}
  {s s' s'' : Scheduler}

theorem errorOf?_eq_some_iff {α : Type} {answer : Except QueryError α}
    {error : QueryError} :
    errorOf? answer = some error ↔ answer = .error error := by
  cases answer with
  | ok => simp [errorOf?]
  | error own => simp [errorOf?]

/-! ## Sending -/

/-- Sending fails for an unknown worker and for one that has been sent a job,
and only then. -/
theorem send_eq_error_iff (balanced : Accounts value log s) (id : WorkerId)
    (dispatch : Dispatch) (error : QueryError) :
    s.send id dispatch = .error error ↔
      (error = .unknownWorker id ∧ id ∉ s.workers.map Worker.id) ∨
        (error = .jobAlreadySent id ∧ ∃ sent, .sent sent ∈ story log id) := by
  cases hworker : s.worker? id with
  | none =>
      have hunknown := worker?_eq_none hworker
      have hid : id ∉ s.workers.map Worker.id := by
        intro hid
        obtain ⟨w, hw, heq⟩ := List.mem_map.mp hid
        exact hunknown w hw heq
      simp [send, hworker, hid, balanced.silent id hunknown, eq_comm]
  | some w =>
      obtain rfl := id_of_worker? hworker
      have hid : w.id ∈ s.workers.map Worker.id :=
        List.mem_map_of_mem (mem_of_worker? hworker)
      rcases (balanced.accords hworker).idle_or_serves with
        ⟨-, -, sent, hinbox, hjob, hstory⟩ | ⟨sent, done, hserves, -⟩
      · cases sent with
        | none => simp [send, hworker, hid, hinbox, hjob, hstory]
        | some sent => simp [send, hworker, hid, hjob, hstory, eq_comm]
      · simp [send, hworker, hid, hserves.hasJob, hserves.story, eq_comm]

/-- The inbox of a worker without a job is open and empty. -/
theorem inbox_of_jobless (balanced : Accounts value log s) {w : Worker}
    (hw : w ∈ s.workers)
    (jobless : w.hasJob = false) : w.inbox = .open none := by
  rcases (balanced.each w hw).idle_or_serves with ⟨-, -, sent, hinbox, hjob, -⟩ | ⟨_, _, hserves, -⟩
  · cases sent with
    | none => exact hinbox
    | some sent => cases jobless.symm.trans hjob
  · cases jobless.symm.trans hserves.hasJob

/-! ## Starting -/

/-- A pool that has not been started has an open queue. -/
theorem queueOpen_of_not_started (balanced : Accounts value log s)
    (started : s.started = false) :
    s.queueOpen = true := by
  have hcollected : s.collected = false := by
    rw [Bool.eq_false_iff]
    intro hcollected
    cases started.symm.trans (balanced.collected hcollected).1
  rw [balanced.queueOpen, hcollected]
  rfl

theorem start_ne_queueClosed (balanced : Accounts value log s) :
    s.start ≠ .error (.scheduler .queueClosed) := by
  intro h
  unfold start at h
  split at h
  · cases h
  next hstarted =>
    split at h
    · cases h
    · split at h
      · cases h
      · rw [if_pos (queueOpen_of_not_started balanced (Bool.eq_false_iff.mpr hstarted))] at h
        cases h

theorem start_eq_ok_iff (balanced : Accounts value log s) :
    (∃ s', s.start = .ok s') ↔
      s.started = false ∧ s.workers ≠ [] ∧
      ∀ w ∈ s.workers, w.hasJob = true := by
  constructor
  · rintro ⟨s', h⟩
    obtain ⟨notStarted, workers, jobs, -⟩ := of_start_eq_ok h
    exact ⟨notStarted, workers, jobs⟩
  · rintro ⟨notStarted, workers, jobs⟩
    exact ⟨_, start_eq_ok balanced notStarted workers jobs⟩

/-- Only a start starts a pool. -/
theorem Change.started_or_start {e : Event} {notes : List Note}
    (change : Change s e notes s') :
    s'.started = s.started ∨ e = .start := by
  cases change with
  | started => exact .inr rfl
  | collected => rw [collect_after]; exact .inl rfl
  | @cancelled watched => cases watched <;> exact .inl rfl
  | @expired watched => cases watched <;> exact .inl rfl
  | @cancelledByJob w next watched => cases watched <;> exact .inl rfl
  | published => split <;> exact .inl rfl
  | _ => exact .inl rfl

/-- A pool that is started has been started. -/
theorem Runs.exists_start (run : Runs s log s') (notStarted : s.started = false)
    (started : s'.started = true) : ∃ before s₀ s₁ after,
      Runs s before s₀ ∧ s₀.start = .ok s₁ ∧ Runs s₁ after s' := by
  induction run with
  | refl => cases notStarted.symm.trans started
  | @snoc s₁ s₂ log e run happens ih =>
      cases hstarted : s₁.started with
      | true =>
          obtain ⟨before, s₀, s₁, after, first, hstart, rest⟩ := ih hstarted
          exact ⟨before, s₀, s₁, _, first, hstart, rest.snoc happens⟩
      | false =>
          rcases (change_of_happen happens).started_or_start with hsame | rfl
          · cases (hsame.trans hstarted).symm.trans started
          · cases hstart : s₁.start with
            | error error =>
                rw [happen, hstart] at happens
                cases happens
                cases hstarted.symm.trans started
            | ok next =>
                rw [happen, hstart] at happens
                cases happens
                exact ⟨log, s₁, _, [], run, hstart, .refl _⟩

/-! ## Putting a start right -/

/-- After a job was sent to a worker, those still without a job are others. -/
theorem jobless_send (balanced : Accounts value log s) (id : WorkerId)
    (dispatch : Dispatch) {w : Worker}
    (hw : w ∈ ((s.send id dispatch).toOption.getD s).workers)
    (jobless : w.hasJob = false) : w ∈ s.workers ∧ w.id ≠ id := by
  cases hsend : s.send id dispatch with
  | error error =>
      rw [hsend] at hw
      refine ⟨hw, ?_⟩
      rintro rfl
      have hempty := inbox_of_jobless balanced hw jobless
      simp [send, worker?_of_mem balanced.ids hw, jobless, hempty] at hsend
  | ok next =>
      obtain ⟨old, rfl, -, rfl⟩ := of_send_eq_ok hsend
      rw [hsend] at hw
      rcases mem_setWorker hw with rfl | hkept
      · cases jobless
      · exact hkept

theorem send_ids (s : Scheduler) (id : WorkerId) (dispatch : Dispatch) :
    ((s.send id dispatch).toOption.getD s).workers.map Worker.id
      = s.workers.map Worker.id := by
  cases hsend : s.send id dispatch with
  | error => rfl
  | ok next =>
      obtain ⟨w, -, -, rfl⟩ := of_send_eq_ok hsend
      exact setWorker_ids _ _

theorem play_sends (dispatch : Dispatch) (ids : List WorkerId) :
    ∀ {value : WorkerId → JobResult} {log : List Note} {s : Scheduler},
      Accounts value log s →
      ∃ more s', s.play (ids.map (.send · dispatch)) = some (more, s') ∧
        s'.started = s.started ∧
        s'.workers.map Worker.id = s.workers.map Worker.id ∧
        ∀ w ∈ s'.workers, w.hasJob = false → w ∈ s.workers ∧ w.id ∉ ids := by
  induction ids with
  | nil =>
      intro value log s _
      exact ⟨[], s, rfl, rfl, rfl, fun w hw _ => ⟨hw, List.not_mem_nil⟩⟩
  | cons id ids ih =>
      intro value log s balanced
      have hchange := change_of_send s id dispatch
      obtain ⟨value', balanced'⟩ := balanced.change hchange
      obtain ⟨more, s', hplay, hstarted, hids, hjobless⟩ := ih balanced'
      refine ⟨s.notes (.send id dispatch) ++ more, s', ?_, hstarted.trans ?_,
        hids.trans (send_ids s id dispatch), ?_⟩
      · rw [List.map_cons, play, happen, Option.bind_some, hplay, Option.map_some]
      · rcases hchange.started_or_start with hsame | hstart
        · exact hsame
        · cases hstart
      · intro w hw jobless
        obtain ⟨hw, hrest⟩ := hjobless w hw jobless
        obtain ⟨hw, hne⟩ := jobless_send balanced id dispatch hw jobless
        exact ⟨hw, List.not_mem_cons_of_ne_of_not_mem hne hrest⟩

/-- Whatever keeps a pool from being started can be put right by further
calls. -/
theorem start_after_calls (balanced : Accounts value log s)
    (notStarted : s.started = false) (id : WorkerId) (dispatch : Dispatch) :
    ∃ calls more s' s'',
      (∀ e ∈ calls, e = .schedule id ∨ ∃ other, e = .send other dispatch) ∧
        s.play calls = some (more, s') ∧ s'.start = .ok s'' := by
  have hchange := change_of_schedule s id
  have hid := (mem_ids_schedule notStarted id id).mpr (.inr rfl)
  generalize hnext : (s.schedule id).toOption.getD s = next at hchange hid
  obtain ⟨value', balanced'⟩ := balanced.change hchange
  obtain ⟨more, s', hplay, hstarted, hids, hjobless⟩ :=
    play_sends dispatch (next.workers.map Worker.id) balanced'
  obtain ⟨value'', balanced''⟩ := balanced'.runs (runs_of_play _ hplay)
  have notStarted' : s'.started = false := by
    rcases hchange.started_or_start with hsame | hstart
    · exact hstarted.trans (hsame.trans notStarted)
    · cases hstart
  have workers : s'.workers ≠ [] := by
    intro hnil
    rw [← hids, hnil] at hid
    cases hid
  have jobs : ∀ w ∈ s'.workers, w.hasJob = true := by
    intro w hw
    rw [← Bool.not_eq_false]
    intro jobless
    obtain ⟨hold, hnone⟩ := hjobless w hw jobless
    exact hnone (List.mem_map_of_mem hold)
  refine ⟨.schedule id :: (next.workers.map Worker.id).map (.send · dispatch), more, s', _, ?_, ?_,
    start_eq_ok balanced'' notStarted' workers jobs⟩
  · intro e he
    rcases List.mem_cons.mp he with rfl | he
    · exact .inl rfl
    · obtain ⟨other, -, rfl⟩ := List.mem_map.mp he
      exact .inr ⟨other, rfl⟩
  · rw [play, happen, Option.bind_some, hnext, hplay]
    rfl

/-! ## Collecting -/

/-- The results of a pool fail to come only if it was not started, or they
were taken. -/
theorem refuses_of_results_error (balanced : Accounts value log s)
    {error : QueryError}
    (h : s.results.1 = .error error) : s.Refuses .results := by
  cases hstarted : s.started with
  | false => exact .inl hstarted
  | true =>
      cases hcollected : s.collected with
      | true => exact .inr hcollected
      | false =>
          obtain ⟨more, s', run, hover, -, hcollected', hresults⟩ :=
            results_runs balanced hstarted hcollected
          obtain ⟨value', balanced'⟩ := balanced.runs run
          rw [hresults, (collect_of_isOver balanced' hover hcollected').1] at h
          cases h

theorem results_of_refuses (h : s.Refuses .results) :
    s.results.2 = s ∧ s.happen .results = some s := by
  rcases h with hstarted | hcollected
  · simp [happen, results, hstarted]
  · cases hstarted : s.started <;> simp [happen, results, hstarted, hcollected]

theorem of_results_eq_ok {entries : List JobResult}
    (h : s.results.1 = .ok entries) :
    s.started = true ∧ s.collected = false := by
  unfold results at h
  split at h
  · cases h
  next hstarted =>
    split at h
    · cases h
    next hcollected => exact ⟨by simpa using hstarted, Bool.eq_false_iff.mpr hcollected⟩

/-- Results that have been taken are never there again. -/
theorem Runs.staysCollected (run : Runs s log s') (started : s.started = true)
    (collected : s.collected = true) :
    s'.started = true ∧ s'.collected = true := by
  induction run with
  | refl => exact ⟨started, collected⟩
  | snoc _ happens ih =>
      have hchange := change_of_happen happens
      obtain ⟨-, hstarted, hsame | rfl⟩ := hchange.samePool ih.1
      · exact ⟨hstarted, hsame.trans ih.2⟩
      · refine ⟨hstarted, ?_⟩
        cases hchange with
        | refused => exact ih.2
        | collected => rw [collect_after]

theorem results_of_collected (started : s.started = true)
    (collected : s.collected = true) :
    s.results = (.error (.scheduler .alreadyCollected), s) := by
  simp [results, started, collected]

/-- Taking the results is possible once. -/
theorem results_only_once (balanced : Accounts value log s)
    {entries : List JobResult} (h : s.results.1 = .ok entries)
    (run : Runs s.results.2 before s') :
    s'.results = (.error (.scheduler .alreadyCollected), s') := by
  obtain ⟨hstarted, hcollected⟩ := of_results_eq_ok h
  obtain ⟨more, last, -, -, hstarted', -, hresults⟩ :=
    results_runs balanced hstarted hcollected
  rw [hresults, collect_after] at run
  obtain ⟨hstarted'', hcollected''⟩ := run.staysCollected hstarted' rfl
  exact results_of_collected hstarted'' hcollected''

/-! ## Calls that fail -/

/-- A call that fails leaves the pool as it was, and the log. -/
theorem happen_of_failure (balanced : Accounts value log s) {e : Event}
    {error : QueryError} (h : s.failure? e = some error) :
    s.happen e = some s ∧ s.notes e = [] := by
  cases e with
  | schedule id =>
      rw [failure?, errorOf?_eq_some_iff] at h
      exact ⟨by rw [happen, h]; rfl, rfl⟩
  | send id dispatch =>
      rw [failure?, errorOf?_eq_some_iff] at h
      exact ⟨by rw [happen, h]; rfl, by rw [notes, h]⟩
  | start =>
      rw [failure?, errorOf?_eq_some_iff] at h
      exact ⟨by rw [happen, h]; rfl, rfl⟩
  | results =>
      rw [failure?, errorOf?_eq_some_iff] at h
      exact ⟨(results_of_refuses (refuses_of_results_error balanced h)).2, rfl⟩
  | cancel => cases h
  | act => cases h

end

/-- In every history a call that fails changes nothing, sending fails for the
two reasons a sender can know, a start that fails can be put right, and the
results are had once, after a start. -/
theorem calls_are_atomic {timeout beside : Nat} {log : List Note}
    {s : Scheduler} (run : Runs (.new timeout beside) log s) :
    (∀ e error, s.failure? e = some error →
        s.happen e = some s ∧ s.notes e = []) ∧
      (∀ error, s.results.1 = .error error → s.results.2 = s) ∧
      (∀ id dispatch error, s.send id dispatch = .error error ↔
        (error = .unknownWorker id ∧ id ∉ s.workers.map Worker.id) ∨
          (error = .jobAlreadySent id ∧ ∃ sent, .sent sent ∈ story log id)) ∧
      (∀ id, s.state id = .unscheduled ↔ id ∉ s.workers.map Worker.id) ∧
      -- A job that may be sent finds an open and empty inbox.
      (∀ w ∈ s.workers, w.hasJob = false → w.inbox = .open none) ∧
      s.start ≠ .error (.scheduler .queueClosed) ∧
      ((∃ s', s.start = .ok s') ↔
        s.started = false ∧ s.workers ≠ [] ∧ ∀ w ∈ s.workers, w.hasJob = true) ∧
      (s.started = false → ∀ id dispatch, ∃ calls more s' s'',
        (∀ e ∈ calls, e = .schedule id ∨ ∃ other, e = .send other dispatch) ∧
          s.play calls = some (more, s') ∧ s'.start = .ok s'') ∧
      ∀ entries, s.results.1 = .ok entries →
        (∃ before s₀ s₁ after,
          Runs (.new timeout beside) before s₀ ∧ s₀.start = .ok s₁ ∧
          Runs s₁ after s) ∧
        ∀ more s', Runs s.results.2 more s' →
          s'.results = (.error (.scheduler .alreadyCollected), s') := by
  obtain ⟨value, balanced⟩ := exists_accounts run
  have hshown : s.Shown := run.shown
  refine ⟨fun e error => happen_of_failure balanced, ?_,
    fun id dispatch error => send_eq_error_iff balanced id dispatch error,
    hshown.state_eq_unscheduled_iff, fun w hw => inbox_of_jobless balanced hw,
    start_ne_queueClosed balanced, start_eq_ok_iff balanced,
    fun notStarted id dispatch => start_after_calls balanced notStarted id dispatch, ?_⟩
  · intro error h
    exact (results_of_refuses (refuses_of_results_error balanced h)).1
  · intro entries h
    exact ⟨run.exists_start rfl (of_results_eq_ok h).1,
      fun more s' rest => results_only_once balanced h rest⟩

/-- A start without a job is refused, put right and repeated; its worker
acts. -/
def startedAgain : List Event :=
  [.schedule 1, .start, .send 1 askingJob, .send 2 askingJob, .start, .act (.pickUp 1)]

theorem refused_start_repeated :
    ∃ log s, play (.new 1 1) startedAgain = some (log, s) ∧
      s.send 1 askingJob = .error (.jobAlreadySent 1) ∧
      s.send 2 askingJob = .error (.unknownWorker 2) ∧
      s.failure? (.schedule 3) = some (.scheduler (.scheduledAfterStart 3)) ∧
      s.happen (.schedule 3) = some s ∧ s.results.1 = .ok [.ofRows 1 []] ∧
      ∀ more s', Runs s.results.2 more s' →
        s'.results = (.error (.scheduler .alreadyCollected), s') := by
  have run : Runs (.new 1 1) _ _ := runs_of_play startedAgain rfl
  obtain ⟨hfailed, -, hsend, -, -, -, -, -, hresults⟩ := calls_are_atomic run
  obtain ⟨-, honce⟩ := hresults _ rfl
  exact ⟨_, _, rfl, (hsend _ _ _).mpr (.inr ⟨rfl, askingJob, .head _⟩),
    (hsend _ _ _).mpr (.inl ⟨rfl, by decide⟩), rfl, (hfailed _ _ rfl).1, rfl, honce⟩

end CsvQuery.Scheduler
