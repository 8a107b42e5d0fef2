/-
How far the workers of a pool have come.

A worker is marked finished, publishes its result and is counted in three steps
of its own, between which anything can happen.  Four numbers tell how many
workers have come as far as each of these, and they can only fall behind one
another in this order.  What a worker shows to its owner moves forward alone
(`WorkerState.Onward`), one state at a time but for the worker that abandons its
job: it is never seen running.

The counts are read off the stages of the tasks.  That the second one is also
the number of results that were put on the queue is `Change.publishedCount`.
-/
import CsvQuery.Proofs.Scheduler.Delivery
import CsvQuery.Proofs.Scheduler.Lifecycle

namespace CsvQuery

/-! ## What an owner sees -/

/-- What may become of the state of a worker at once. -/
inductive WorkerState.Onward : WorkerState → WorkerState → Prop
  | stays (state : WorkerState) : Onward state state
  | scheduled : Onward .unscheduled .scheduled
  | running : Onward .scheduled .running
  | finished : Onward .running .finished
  | abandoned : Onward .scheduled .finished

/-- The states in the order in which a worker goes through them. -/
def WorkerState.rank : WorkerState → Nat
  | .unscheduled => 0
  | .scheduled => 1
  | .running => 2
  | .finished => 3

theorem WorkerState.Onward.rank_le {state state' : WorkerState}
    (h : Onward state state') :
    state.rank ≤ state'.rank := by
  cases h with
  | stays => exact Nat.le_refl _
  | _ => decide

/-- Is the task in the middle of its job? -/
def Stage.isWorking : Stage → Bool
  | .working _ _ => true
  | _ => false

namespace Scheduler

/-- How many results have been published. -/
def publishedCount (s : Scheduler) : Nat :=
  s.workers.countP fun w => w.stage.handedOver

/-- How many workers are finished. -/
def finishedCount (s : Scheduler) : Nat :=
  s.workers.countP fun w => w.state == .finished

section
variable {s s' : Scheduler} {w : Worker}

theorem state_setWorker (hw : s.worker? w.id = some w) (w' : Worker)
    (hid : w'.id = w.id) (id : WorkerId) :
    (s.setWorker w').state id = if id = w.id then w'.state else s.state id := by
  unfold state
  by_cases heq : id = w.id
  · rw [if_pos heq, heq, worker?_setWorker_self hw w' hid]
  · rw [if_neg heq, worker?_setWorker]
    cases hx : s.worker? id with
    | none => rfl
    | some x =>
        have hne : x.id ≠ w'.id := by
          rw [hid, id_of_worker? hx]
          exact heq
        rw [Option.map_some, if_neg hne]

/-- A worker that moves on takes its state with it, and no other. -/
theorem onward_setWorker {id : WorkerId} (hw : s.worker? w.id = some w)
    (w' : Worker) (hid : w'.id = w.id) (own : w.state.Onward w'.state) :
    (s.state id).Onward ((s.setWorker w').state id) := by
  rw [state_setWorker hw w' hid]
  split
  next heq =>
    have hstate : s.state id = w.state := by rw [heq, state, hw]
    rw [hstate]
    exact own
  · exact .stays _

theorem find?_insertWorker {ws : List Worker} (free : ∀ x ∈ ws, x.id ≠ w.id)
    (id : WorkerId) :
    (insertWorker w ws).find? (fun x => x.id == id)
      = if w.id = id then some w else ws.find? fun x => x.id == id := by
  induction ws with
  | nil => by_cases hid : w.id = id <;> simp [insertWorker, hid]
  | cons old rest ih =>
      obtain ⟨hold, hrest⟩ := List.forall_mem_cons.mp free
      unfold insertWorker
      split
      · by_cases hid : w.id = id
        · simp [hid]
        · simp [hid, List.find?_cons]
      · rw [List.find?_cons, ih hrest, List.find?_cons]
        by_cases hid : w.id = id
        · have hne : (old.id == id) = false := beq_false_of_ne (hid ▸ hold)
          simp [hid, hne]
        · simp [hid]

theorem onward_scheduled {id : WorkerId} (free : s.worker? id = none)
    (other : WorkerId) :
    (s.state other).Onward
      ({ s with
          workers := insertWorker (.fresh id) s.workers }.state other) := by
  have hfind := find?_insertWorker (w := .fresh id) (worker?_eq_none free) other
  simp only [state, worker?, hfind]
  by_cases hid : id = other
  · obtain rfl := hid
    have hnone : (s.workers.find? fun x => x.id == id) = none := free
    rw [hnone, if_pos (show (Worker.fresh id).id = id from rfl)]
    exact .scheduled
  · rw [if_neg (show (Worker.fresh id).id ≠ other from hid)]
    exact .stays _

/-- Whatever happens, the state of every worker stays or moves forward. -/
theorem Change.onward {e : Event} {notes : List Note} (shown : s.Shown)
    (change : Change s e notes s') (id : WorkerId) :
    (s.state id).Onward (s'.state id) := by
  cases change with
  | refused => exact .stays _
  | scheduled _ free => exact onward_scheduled free id
  | @sent w dispatch hw => exact onward_setWorker hw _ rfl (.stays _)
  | started =>
      have hstate : Scheduler.state { s with
            workers := s.workers.map fun w => { w with stage := .waiting }
            started := true
            timer := true } id = s.state id := by
        simp only [state, worker?, List.find?_map, Function.comp_def]
        cases s.workers.find? fun w => w.id == id <;> rfl
      rw [hstate]
      exact .stays _
  | collected => rw [collect_after]; exact .stays _
  | @cancelled watched => cases watched <;> exact .stays _
  | @expired watched => cases watched <;> exact .stays _
  | rung => exact .stays _
  | pickedUp hw hstage =>
      refine onward_setWorker hw _ rfl ?_
      rw [List.mem_singleton.mp (shown.at hw hstage)]
      exact .running
  | abandoned hw => exact onward_setWorker hw _ rfl (.stays _)
  | answered hw => exact onward_setWorker hw _ rfl (.stays _)
  | @cancelledByJob w next watched hw =>
      have hset : (s.state id).Onward
          ((s.setWorker { w with stage := .working next watched }).state id) :=
        onward_setWorker hw _ rfl (.stays _)
      cases watched <;> exact hset
  | jobEnded hw => exact onward_setWorker hw _ rfl (.stays _)
  | marked hw hstage =>
      refine onward_setWorker hw _ rfl ?_
      rcases List.mem_cons.mp (shown.at hw hstage) with hscheduled | hrunning
      · rw [hscheduled]
        exact .abandoned
      · rw [List.mem_singleton.mp hrunning]
        exact .finished
  | @published w result hw =>
      have hset : (s.state id).Onward ((s.setWorker { w with stage := .published }).state id) :=
        onward_setWorker hw _ rfl (.stays _)
      split <;> exact hset
  | counted hw => exact onward_setWorker hw _ rfl (.stays _)

theorem Runs.rank_le {timeout beside : Nat} {log more : List Note}
    {s s' : Scheduler} (rest : Runs s more s')
    (run : Runs (.new timeout beside) log s) (id : WorkerId) :
    (s.state id).rank ≤ (s'.state id).rank := by
  induction rest with
  | refl => exact Nat.le_refl _
  | snoc rest h ih =>
      have hshown := (run.trans rest).shown
      exact Nat.le_trans ih ((change_of_happen h).onward hshown id).rank_le

/-! ## The counts -/

/-- A worker that moves on changes a count by itself alone. -/
theorem countP_setWorker (ids : (s.workers.map Worker.id).Nodup)
    (hw : s.worker? w.id = some w) (w' : Worker) (hid : w'.id = w.id)
    (p : Worker → Bool) :
    (s.setWorker w').workers.countP p + (if p w then 1 else 0)
      = s.workers.countP p + if p w' then 1 else 0 := by
  obtain ⟨others, hbefore, -, hafter⟩ := split_workers ids (mem_of_worker? hw)
  rw [hbefore.countP_eq, (hafter w' hid).countP_eq, List.countP_cons, List.countP_cons]
  omega

end

/-- Does the event put a result on the queue? -/
def Event.publishes : Event → Bool
  | .act (.publish _) => true
  | _ => false

section
variable {value : WorkerId → JobResult} {log notes : List Note}
  {s s' : Scheduler} {w : Worker}
  {e : Event}

/-- A worker that moves on without publishing leaves the number of published
results. -/
theorem publishedCount_setWorker (balanced : Accounts value log s)
    (hw : s.worker? w.id = some w) (w' : Worker) (hid : w'.id = w.id)
    (same : w'.stage.handedOver = w.stage.handedOver) :
    (s.setWorker w').publishedCount = s.publishedCount := by
  have hcount := countP_setWorker balanced.ids hw w' hid fun w => w.stage.handedOver
  rw [same] at hcount
  exact Nat.add_right_cancel hcount

/-- The number of published results is that of the publications. -/
theorem Change.publishedCount (balanced : Accounts value log s)
    (change : Change s e notes s') :
    s'.publishedCount = s.publishedCount + if e.publishes then 1 else 0 := by
  cases change with
  | @refused e hrefuses =>
      cases e with
      | act => cases hrefuses
      | _ => rfl
  | @scheduled id =>
      show List.countP _ _ = _
      rw [(insertWorker_perm (.fresh id) s.workers).countP_eq, List.countP_cons_of_neg]
      · rfl
      · simp [Worker.fresh, Stage.handedOver]
  | sent hw => exact publishedCount_setWorker balanced hw _ rfl rfl
  | started notStarted =>
      have hbefore : s.publishedCount = 0 := by
        rw [Scheduler.publishedCount, List.countP_eq_zero]
        intro w hw
        simp [(balanced.idle notStarted hw).1, Stage.handedOver]
      rw [hbefore]
      refine List.countP_eq_zero.mpr ?_
      intro x hx
      obtain ⟨w, -, rfl⟩ := List.mem_map.mp hx
      simp [Stage.handedOver]
  | collected => rw [collect_after]; rfl
  | @cancelled watched => cases watched <;> rfl
  | @expired watched => cases watched <;> rfl
  | rung => rfl
  | pickedUp hw hstage =>
      exact publishedCount_setWorker balanced hw _ rfl (by rw [hstage]; rfl)
  | abandoned hw hstage =>
      exact publishedCount_setWorker balanced hw _ rfl (by rw [hstage]; rfl)
  | answered hw hstage =>
      exact publishedCount_setWorker balanced hw _ rfl (by rw [hstage]; rfl)
  | @cancelledByJob w next watched hw hstage =>
      have hset :=
        publishedCount_setWorker balanced hw { w with stage := .working next watched }
          rfl (by rw [hstage]; rfl)
      cases watched <;> exact hset
  | jobEnded hw hstage =>
      exact publishedCount_setWorker balanced hw _ rfl (by rw [hstage]; rfl)
  | marked hw hstage =>
      exact publishedCount_setWorker balanced hw _ rfl (by rw [hstage]; rfl)
  | @published w result hw hstage =>
      have hcount := countP_setWorker balanced.ids hw { w with stage := .published } rfl
        fun w => w.stage.handedOver
      rw [hstage] at hcount
      split <;> exact hcount
  | counted hw hstage =>
      exact publishedCount_setWorker balanced hw _ rfl (by rw [hstage]; rfl)

/-- Counted workers have published their results. -/
theorem completed_le_publishedCount (balanced : Accounts value log s) :
    s.completed ≤ s.publishedCount := by
  rw [balanced.completed]
  refine List.countP_mono_left ?_
  intro w _ hover
  rw [Stage.eq_counted hover]
  rfl

/-- Workers that have published their results are finished. -/
theorem publishedCount_le_finishedCount (shown : s.Shown) :
    s.publishedCount ≤ s.finishedCount := by
  refine List.countP_mono_left ?_
  intro w hw hpublished
  have hstate := shown w hw
  cases hstage : w.stage with
  | published => simpa [hstage, Stage.states] using hstate
  | counted => simpa [hstage, Stage.states] using hstate
  | _ => simp [hstage, Stage.handedOver] at hpublished

theorem finishedCount_le_scheduledCount (s : Scheduler) :
    s.finishedCount ≤ s.scheduledCount :=
  List.countP_le_length

/-- What has been published and not been collected is on the queue. -/
theorem length_queue (balanced : Accounts value log s)
    (collected : s.collected = false) :
    s.queue.length = s.publishedCount := by
  rw [(balanced.queue collected).length_eq, handedOver, List.length_map, publishedCount,
    List.countP_eq_length_filter]

/-- A worker in the middle of its job is shown running. -/
theorem Shown.running (shown : s.Shown) {id : WorkerId}
    (hw : s.worker? id = some w)
    (working : w.stage.isWorking = true) : s.state id = .running := by
  rw [state, hw]
  have hstate := shown w (mem_of_worker? hw)
  cases hstage : w.stage with
  | working job watched =>
      rw [hstage] at hstate
      exact List.mem_singleton.mp hstate
  | _ => simp [hstage, Stage.isWorking] at working

end

/-- When all tasks are over, every worker has come as far as it can. -/
theorem counts_of_isOver {s : Scheduler} (shown : s.Shown)
    (ended : s.isOver = true) :
    s.publishedCount = s.scheduledCount ∧ s.finishedCount = s.scheduledCount ∧
      ∀ w ∈ s.workers, w.state = .finished := by
  have hover := List.all_eq_true.mp ended
  have hfinished : ∀ w ∈ s.workers, w.state = .finished := fun w hw =>
    shown.finished hw (hover w hw)
  refine ⟨List.countP_eq_length.mpr ?_, List.countP_eq_length.mpr ?_, hfinished⟩
  · intro w hw
    rw [Stage.eq_counted (hover w hw)]
    rfl
  · intro w hw
    rw [hfinished w hw]
    rfl

/-- The results of a pool are handed out at the end of a run, one for every
worker. -/
theorem counts_of_results {timeout beside : Nat} {log : List Note}
    {s : Scheduler} (run : Runs (.new timeout beside) log s)
    {entries : List JobResult} (handedOut : s.results.1 = .ok entries) :
    (∃ more, Runs s more s.results.2) ∧ s.results.2.completed = entries.length ∧
      s.results.2.publishedCount = entries.length ∧
      s.results.2.finishedCount = entries.length ∧
      s.results.2.scheduledCount = entries.length ∧
      ∀ w ∈ s.results.2.workers, w.state = .finished := by
  obtain ⟨value, balanced⟩ := exists_accounts run
  cases hstarted : s.started with
  | false => simp [results, hstarted] at handedOut
  | true =>
    cases hcollected : s.collected with
    | true => simp [results, hstarted, hcollected] at handedOut
    | false =>
        obtain ⟨more, s', rest, hover, hstarted', hcollected', hresults⟩ :=
          results_runs balanced hstarted hcollected
        obtain ⟨value', balanced'⟩ := balanced.runs rest
        obtain ⟨hok, hqueue⟩ := collect_of_isOver balanced' hover hcollected'
        have hshown : s'.Shown := (run.trans rest).shown
        obtain ⟨hpublished, hfinished, hstates⟩ := counts_of_isOver hshown hover
        have hlast : s'.happen .results = some s'.collect.2 := by
          rw [happen, hover, results_of_isOver hstarted' hcollected' hover]
          simp
        rw [hresults] at handedOut ⊢
        cases hok.symm.trans handedOut
        have hlength : s'.scheduledCount = s'.queue.length := by
          rw [hqueue.length_eq, List.length_map, scheduledCount]
        have hcompleted : s'.completed = s'.scheduledCount := by
          rw [balanced'.completed, scheduledCount, List.countP_eq_length]
          exact List.all_eq_true.mp hover
        refine ⟨⟨_, rest.snoc hlast⟩, ?_⟩
        rw [collect_after]
        exact ⟨hcompleted.trans hlength, hpublished.trans hlength, hfinished.trans hlength,
          hlength, hstates⟩

/-- The workers of a pool only move forward.  Counted workers have published
their results, as many as there are publications, and workers that have
published are finished; a job is under way only while its worker is running.
When the results are handed out, one for every worker, all of them have come
to their ends. -/
theorem workers_only_move_forward {timeout beside : Nat} {log : List Note}
    {s : Scheduler} (run : Runs (.new timeout beside) log s) :
    (∀ e s', s.happen e = some s' →
      (∀ id, (s.state id).Onward (s'.state id)) ∧
        s'.publishedCount = s.publishedCount + if e.publishes then 1 else 0) ∧
      (∀ more s', Runs s more s' →
          ∀ id, (s.state id).rank ≤ (s'.state id).rank) ∧
      (∀ id w, s.worker? id = some w → w.stage.isWorking = true →
          s.state id = .running) ∧
      (s.collected = false → s.queue.length = s.publishedCount) ∧
      s.completed ≤ s.publishedCount ∧ s.publishedCount ≤ s.finishedCount ∧
      s.finishedCount ≤ s.scheduledCount ∧
      ∀ entries, s.results.1 = .ok entries →
        (∃ more, Runs s more s.results.2) ∧
        s.results.2.completed = entries.length ∧
          s.results.2.publishedCount = entries.length ∧
          s.results.2.finishedCount = entries.length ∧
          s.results.2.scheduledCount = entries.length ∧
          ∀ w ∈ s.results.2.workers, w.state = .finished := by
  obtain ⟨value, balanced⟩ := exists_accounts run
  have hshown : s.Shown := run.shown
  refine ⟨?_, ?_, fun id w hw => hshown.running hw, length_queue balanced,
    completed_le_publishedCount balanced, publishedCount_le_finishedCount hshown,
    finishedCount_le_scheduledCount s, ?_⟩
  · intro e s' h
    have change := change_of_happen h
    exact ⟨change.onward hshown, change.publishedCount balanced⟩
  · intro more s' rest
    exact rest.rank_le run
  · intro entries handedOut
    exact counts_of_results run handedOut

/-- One of three workers has been counted, another one has published its
result, and the third is marked finished. -/
theorem one_worker_at_every_count :
    ∃ log s, play (.new 1 1) (trio ++ .start :: trioActs.take 13)
      = some (log, s) ∧
      s.completed = 1 ∧ s.publishedCount = 2 ∧ s.finishedCount = 3 ∧
      s.completed ≤ s.publishedCount ∧ s.publishedCount ≤ s.finishedCount ∧
      s.finishedCount ≤ s.scheduledCount ∧ (∃ more, Runs s more s.results.2) ∧
      s.results.2.completed = 3 ∧ s.results.2.publishedCount = 3 ∧
      s.results.2.finishedCount = 3 ∧ s.results.2.scheduledCount = 3 ∧
      s.results.2.state 3 = .finished := by
  have run : Runs (.new 1 1) _ _ :=
    runs_of_play (trio ++ .start :: trioActs.take 13) rfl
  obtain ⟨-, -, -, -, hcompleted, hpublished, hfinished, hresults⟩ :=
    workers_only_move_forward run
  obtain ⟨hruns, hcounts⟩ := hresults _ rfl
  obtain ⟨hcompleted', hpublished', hfinished', hscheduled', hstates⟩ := hcounts
  exact ⟨_, _, rfl, rfl, rfl, rfl, hcompleted, hpublished, hfinished, hruns, hcompleted',
    hpublished', hfinished', hscheduled', hstates _ (.tail _ (.tail _ (.head _)))⟩

end Scheduler
end CsvQuery
