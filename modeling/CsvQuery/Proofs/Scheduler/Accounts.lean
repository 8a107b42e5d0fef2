/-
What a pool and its log have in common.

Every worker's story is one of a job sent, invoked and answered, in that order
and each as far as the worker's task has come (`Worker.Accords`).  The counter
counts the tasks that are over, and the queue holds the values of the workers
that have published, until it is handed to the owner.  These accounts balance
in a new pool, and every change keeps them (`Accounts.change`): a change moves
one worker at most, and `Accounts.move` says what is then left to be checked.

`Delivers` is the specification of a result.  It says what a worker may put on
the queue, given what its job was told.
-/
import CsvQuery.Proofs.Scheduler.History

namespace CsvQuery

/-- How a job ends when its questions are answered in turn; none when it asks
more or fewer. -/
def Job.endingOn : Job → List Bool → Option Ending
  | .ends ending, [] => some ending
  | .ends _, _ :: _ => none
  | .asks next, done :: answers => (next done).endingOn answers
  | .asks _, [] => none
  | .cancels next, answers => next.endingOn answers

/-- Has the result left the worker? -/
def Stage.handedOver : Stage → Bool
  | .published => true
  | .counted => true
  | _ => false

theorem Stage.isOver_of_not_handedOver {stage : Stage}
    (h : stage.handedOver = false) :
    stage.isOver = false := by
  cases stage with
  | counted => cases h
  | _ => rfl

namespace Scheduler

/-- What a worker has done since its job was sent, and the result it owes for
that: the value that its own job returned, a report of its panic, or an
abandoned result when the job was not invoked and the run is cancelled. -/
inductive Delivers (cancelled : Bool) (id : WorkerId) (dispatch : Dispatch) :
    List Deed → JobResult → Prop
  | returned {answers : List Bool} {result : JobResult} :
      (dispatch.job id).endingOn answers = some (.returned result) →
      Delivers cancelled id dispatch
        (.invoked dispatch :: answers.map .answered) result
  | panicked {answers : List Bool} :
      (dispatch.job id).endingOn answers = some .panicked →
      Delivers cancelled id dispatch
        (.invoked dispatch :: answers.map .answered)
        (.failed id (.jobPanicked id))
  | abandoned : cancelled = true →
      Delivers cancelled id dispatch [] (.abandoned id)

theorem Delivers.mono {cancelled cancelled' : Bool} {id : WorkerId}
    {dispatch : Dispatch} {done : List Deed} {result : JobResult}
    (h : Delivers cancelled id dispatch done result)
    (hc : cancelled = true → cancelled' = true) :
    Delivers cancelled' id dispatch done result := by
  cases h with
  | returned h => exact .returned h
  | panicked h => exact .panicked h
  | abandoned h => exact .abandoned (hc h)

/-- What a worker may have done for its job: nothing, or invoked it once and
answered its questions. -/
inductive InvokesOnce (dispatch : Dispatch) : List Deed → Prop
  | notYet : InvokesOnce dispatch []
  | invoked (answers : List Bool) :
      InvokesOnce dispatch (.invoked dispatch :: answers.map .answered)

theorem Delivers.invokesOnce {cancelled : Bool} {id : WorkerId}
    {dispatch : Dispatch} {done : List Deed} {result : JobResult}
    (h : Delivers cancelled id dispatch done result) :
    InvokesOnce dispatch done := by
  cases h with
  | returned => exact .invoked _
  | panicked => exact .invoked _
  | abandoned => exact .notYet

theorem Delivers.ofEnding {cancelled : Bool} {id : WorkerId}
    {dispatch : Dispatch} {answers : List Bool} {ending : Ending}
    (h : (dispatch.job id).endingOn answers = some ending) :
    Delivers cancelled id dispatch (.invoked dispatch :: answers.map .answered)
      (ending.result id) := by
  cases ending with
  | returned result => exact .returned h
  | panicked => exact .panicked h

/-- A delivered result is an abandoned one, or what the invoked job came to. -/
theorem Delivers.abandoned_or_invoked {cancelled : Bool} {id : WorkerId}
    {dispatch : Dispatch} {done : List Deed} {result : JobResult}
    (h : Delivers cancelled id dispatch done result) :
    (cancelled = true ∧ done = [] ∧ result = .abandoned id) ∨
      ∃ answers ending, done = .invoked dispatch :: answers.map .answered ∧
        (dispatch.job id).endingOn answers = some ending ∧
        result = ending.result id := by
  cases h with
  | returned h => exact .inr ⟨_, _, rfl, h, rfl⟩
  | panicked h => exact .inr ⟨_, _, rfl, h, rfl⟩
  | abandoned h => exact .inl ⟨h, rfl, rfl⟩

end Scheduler

open Scheduler

/-- The job that a worker of a started pool was sent, and what it has done
since. -/
structure Serves (started hasJob : Bool) (story : List Deed)
    (dispatch : Dispatch) (done : List Deed) : Prop where
  started : started = true
  hasJob : hasJob = true
  story : story = .sent dispatch :: done

/-- A worker and its story agree. -/
def Worker.Accords (w : Worker) (started cancelled : Bool) (story : List Deed)
    (value : JobResult) : Prop :=
  match w.stage with
  | .idle => started = false ∧ ∃ sent : Option Dispatch,
      w.inbox = .open sent ∧ w.hasJob = sent.isSome ∧ story = sent.toList.map .sent
  | .waiting => ∃ dispatch,
      Serves started w.hasJob story dispatch [] ∧ w.inbox = .open (some dispatch)
  | .working job watched => ∃ dispatch answers,
      Serves started w.hasJob story dispatch (.invoked dispatch :: answers.map .answered) ∧
        watched = dispatch.watched ∧
        -- What the job has still to do is what it does after these answers.
        ∀ rest, (dispatch.job w.id).endingOn (answers ++ rest) = job.endingOn rest
  | .ended result => ∃ dispatch done,
      Serves started w.hasJob story dispatch done ∧ Delivers cancelled w.id dispatch done result
  | .marked result => ∃ dispatch done,
      Serves started w.hasJob story dispatch done ∧ Delivers cancelled w.id dispatch done result
  | .published => ∃ dispatch done,
      Serves started w.hasJob story dispatch done ∧ Delivers cancelled w.id dispatch done value
  | .counted => ∃ dispatch done,
      Serves started w.hasJob story dispatch done ∧ Delivers cancelled w.id dispatch done value

/-- A worker has no task yet, or it serves the job it was sent. -/
theorem Worker.Accords.idle_or_serves {w : Worker} {started cancelled : Bool}
    {story : List Deed} {value : JobResult}
    (h : w.Accords started cancelled story value) :
    (w.stage = .idle ∧ started = false ∧ ∃ sent : Option Dispatch,
      w.inbox = .open sent ∧ w.hasJob = sent.isSome ∧
      story = sent.toList.map .sent) ∨
    ∃ dispatch done, Serves started w.hasJob story dispatch done ∧
      InvokesOnce dispatch done := by
  unfold Worker.Accords at h
  split at h
  next hstage => exact .inl ⟨hstage, h⟩
  next =>
    obtain ⟨dispatch, hserves, -⟩ := h
    exact .inr ⟨dispatch, [], hserves, .notYet⟩
  next =>
    obtain ⟨dispatch, answers, hserves, -, -⟩ := h
    exact .inr ⟨dispatch, _, hserves, .invoked answers⟩
  all_goals
    obtain ⟨dispatch, done, hserves, hdelivers⟩ := h
    exact .inr ⟨dispatch, done, hserves, hdelivers.invokesOnce⟩

theorem Worker.Accords.mono {w : Worker} {started cancelled cancelled' : Bool}
    {story : List Deed} {value : JobResult}
    (h : w.Accords started cancelled story value)
    (hc : cancelled = true → cancelled' = true) :
    w.Accords started cancelled' story value := by
  have hdone : ∀ {result : JobResult},
      (∃ dispatch done, Serves started w.hasJob story dispatch done ∧
        Delivers cancelled w.id dispatch done result) →
      ∃ dispatch done, Serves started w.hasJob story dispatch done ∧
        Delivers cancelled' w.id dispatch done result := by
    intro result ⟨dispatch, done, hserves, hdelivers⟩
    exact ⟨dispatch, done, hserves, hdelivers.mono hc⟩
  unfold Worker.Accords at h ⊢
  cases hstage : w.stage with
  | idle => simpa only [hstage] using h
  | waiting => simpa only [hstage] using h
  | working job watched => simpa only [hstage] using h
  | ended result => simp only [hstage] at h ⊢; exact hdone h
  | marked result => simp only [hstage] at h ⊢; exact hdone h
  | published => simp only [hstage] at h ⊢; exact hdone h
  | counted => simp only [hstage] at h ⊢; exact hdone h

namespace Scheduler

/-- The values of the workers that have handed over their results. -/
def handedOver (value : WorkerId → JobResult)
    (ws : List Worker) : List JobResult :=
  (ws.filter fun w => w.stage.handedOver).map fun w => value w.id

theorem handedOver_perm {value : WorkerId → JobResult} {ws ws' : List Worker}
    (h : ws.Perm ws') :
    (handedOver value ws).Perm (handedOver value ws') :=
  (h.filter _).map _

theorem handedOver_cons (value : WorkerId → JobResult) (w : Worker)
    (ws : List Worker) :
    handedOver value (w :: ws)
      = (if w.stage.handedOver then [value w.id] else [])
        ++ handedOver value ws := by
  cases h : w.stage.handedOver with
  | false => simp [handedOver, h]
  | true => simp [handedOver, h]

theorem handedOver_congr {value value' : WorkerId → JobResult}
    {ws : List Worker} (h : ∀ w ∈ ws, value' w.id = value w.id) :
    handedOver value' ws = handedOver value ws := by
  apply List.map_congr_left
  intro w hw
  exact h w (List.mem_filter.mp hw).1

/-- A pool and its log balance, when `value` says what every worker has
handed over. -/
structure Accounts (value : WorkerId → JobResult) (log : List Note)
    (s : Scheduler) : Prop where
  ids : (s.workers.map Worker.id).Nodup
  each : ∀ w ∈ s.workers,
    w.Accords s.started s.deadline.cancelled (story log w.id) (value w.id)
  silent : ∀ id, (∀ w ∈ s.workers, w.id ≠ id) → story log id = []
  completed : s.completed = s.workers.countP fun w => w.stage.isOver
  queueOpen : s.queueOpen = !s.collected
  queue : s.collected = false → s.queue.Perm (handedOver value s.workers)
  collected : s.collected = true → s.started = true ∧ s.isOver = true

theorem accounts_new (value : WorkerId → JobResult) (timeout beside : Nat) :
    Accounts value [] (.new timeout beside) where
  ids := .nil
  each := by
    intro w hw
    cases hw
  silent _ _ := rfl
  completed := rfl
  queueOpen := rfl
  queue _ := .refl _
  collected := by
    intro h
    cases h

section
variable {value value' : WorkerId → JobResult} {log log' : List Note}
  {s : Scheduler}
  {w w' : Worker}

theorem Accounts.accords (h : Accounts value log s)
    (hw : s.worker? w.id = some w) :
    w.Accords s.started s.deadline.cancelled (story log w.id) (value w.id) :=
  h.each w (mem_of_worker? hw)

/-- A worker whose task is over has delivered its value. -/
theorem Accounts.delivers (h : Accounts value log s) (hw : w ∈ s.workers)
    (ended : w.stage.isOver = true) : ∃ dispatch done,
      Serves s.started w.hasJob (story log w.id) dispatch done ∧
        Delivers s.deadline.cancelled w.id dispatch done (value w.id) := by
  have own := h.each w hw
  simp only [Worker.Accords, Stage.eq_counted ended] at own
  exact own

/-- A pool with a task that is not over has not been collected. -/
theorem Accounts.not_collected (h : Accounts value log s)
    (hw : s.worker? w.id = some w)
    (busy : w.stage.isOver = false) : s.collected = false := by
  rw [Bool.eq_false_iff]
  intro hcollected
  have hover := List.all_eq_true.mp (h.collected hcollected).2 w (mem_of_worker? hw)
  rw [busy] at hover
  cases hover

/-- One worker moves on.  Its own account has to balance again, and so have the
counter and the queue; those of the other workers do. -/
theorem Accounts.move (h : Accounts value log s)
    (hw : s.worker? w.id = some w) (busy : w.stage.isOver = false)
    (w' : Worker) (hid : w'.id = w.id) {q : List JobResult} {c : Nat}
    {d b : Deadline} (others : ∀ id, id ≠ w.id → story log' id = story log id)
    (values : ∀ id, id ≠ w.id → value' id = value id)
    (cancelled : s.deadline.cancelled = true → d.cancelled = true)
    (own : w'.Accords s.started d.cancelled (story log' w.id) (value' w.id))
    (completed : c = s.completed + if w'.stage.isOver then 1 else 0)
    (queue : ∀ rest,
      s.queue.Perm ((if w.stage.handedOver then [value w.id] else [])
        ++ rest) →
      q.Perm ((if w'.stage.handedOver then [value' w.id] else []) ++ rest)) :
    Accounts value' log'
      { s.setWorker w' with queue := q, completed := c, deadline := d, beside := b } := by
  obtain ⟨rest, hperm, hrest, hset⟩ := split_workers h.ids (mem_of_worker? hw)
  have hcollected := h.not_collected hw busy
  refine ⟨?_, ?_, ?_, ?_, h.queueOpen, ?_, ?_⟩
  · rw [setWorker_ids]
    exact h.ids
  · intro x hx
    rcases List.mem_cons.mp ((hset w' hid).mem_iff.mp hx) with rfl | hx
    · rw [hid]
      exact own
    · have hold := h.each x (hperm.mem_iff.mpr (List.mem_cons_of_mem w hx))
      rw [others x.id (hrest x hx), values x.id (hrest x hx)]
      exact hold.mono cancelled
  · intro id hnone
    have hne : id ≠ w.id := by
      intro heq
      exact hnone w' ((hset w' hid).mem_iff.mpr List.mem_cons_self) (hid.trans heq.symm)
    rw [others id hne]
    refine h.silent id ?_
    intro x hx
    rcases List.mem_cons.mp (hperm.mem_iff.mp hx) with rfl | hx
    · exact hne.symm
    · exact hnone x ((hset w' hid).mem_iff.mpr (List.mem_cons_of_mem w' hx))
  · have hbefore := h.completed
    rw [hperm.countP_eq, List.countP_cons, busy] at hbefore
    show c = (s.setWorker w').workers.countP fun w => w.stage.isOver
    rw [(hset w' hid).countP_eq, List.countP_cons, completed, hbefore]
    simp
  · intro _
    have hbefore := (h.queue hcollected).trans (handedOver_perm hperm)
    rw [handedOver_cons] at hbefore
    refine List.Perm.trans ?_ (handedOver_perm (hset w' hid)).symm
    rw [handedOver_cons, hid, handedOver_congr fun x hx => values x.id (hrest x hx)]
    exact queue _ hbefore
  · intro hcollected'
    cases hcollected.symm.trans hcollected'

/-- One worker moves on, and neither the counter nor the queue is touched. -/
theorem Accounts.moveQuietly (h : Accounts value log s)
    (hw : s.worker? w.id = some w) (quiet : w.stage.handedOver = false)
    (w' : Worker) (hid : w'.id = w.id) (quiet' : w'.stage.handedOver = false)
    {d b : Deadline} (others : ∀ id, id ≠ w.id → story log' id = story log id)
    (cancelled : s.deadline.cancelled = true → d.cancelled = true)
    (own : w'.Accords s.started d.cancelled (story log' w.id) (value w.id)) :
    Accounts value log' { s.setWorker w' with deadline := d, beside := b } := by
  refine h.move hw (Stage.isOver_of_not_handedOver quiet) w' hid others (fun _ _ => rfl)
    cancelled own ?_ ?_
  · rw [Stage.isOver_of_not_handedOver quiet']
    rfl
  · intro rest hqueue
    rw [quiet] at hqueue
    rw [quiet']
    exact hqueue

/-- Nothing moves but the deadlines. -/
theorem Accounts.setDeadlines (h : Accounts value log s) {d b : Deadline}
    (cancelled : s.deadline.cancelled = true → d.cancelled = true) :
    Accounts value log { s with deadline := d, beside := b } where
  ids := h.ids
  each := by
    intro w hw
    exact (h.each w hw).mono cancelled
  silent := h.silent
  completed := h.completed
  queueOpen := h.queueOpen
  queue := h.queue
  collected := h.collected

theorem Accounts.scheduled (h : Accounts value log s) {id : WorkerId}
    (started : s.started = false) (free : s.worker? id = none) :
    Accounts value log
      { s with workers := insertWorker (.fresh id) s.workers } := by
  have hperm := insertWorker_perm (.fresh id) s.workers
  have hfree := worker?_eq_none free
  have hcollected : s.collected = false := by
    rw [Bool.eq_false_iff]
    intro hcollected
    cases started.symm.trans (h.collected hcollected).1
  refine ⟨?_, ?_, ?_, ?_, h.queueOpen, ?_, ?_⟩
  · refine (hperm.map Worker.id).nodup_iff.mpr (List.nodup_cons.mpr ⟨?_, h.ids⟩)
    intro hmem
    obtain ⟨w, hw, hid⟩ := List.mem_map.mp hmem
    exact hfree w hw hid
  · intro w hw
    rcases List.mem_cons.mp (hperm.mem_iff.mp hw) with rfl | hw
    · exact ⟨started, none, rfl, rfl, h.silent id hfree⟩
    · exact h.each w hw
  · intro other hnone
    refine h.silent other ?_
    intro w hw
    exact hnone w (hperm.mem_iff.mpr (List.mem_cons_of_mem _ hw))
  · show s.completed = _
    rw [hperm.countP_eq, List.countP_cons_of_neg (by simp [Worker.fresh, Stage.isOver])]
    exact h.completed
  · intro _
    refine (h.queue hcollected).trans ?_
    refine List.Perm.trans ?_ (handedOver_perm hperm).symm
    rw [handedOver_cons]
    exact .refl _
  · intro hcollected'
    cases hcollected.symm.trans hcollected'

/-- Before the start there is no task. -/
theorem Accounts.idle (h : Accounts value log s) (started : s.started = false)
    (hw : w ∈ s.workers) :
    w.stage = .idle ∧ ∃ sent : Option Dispatch, w.inbox = .open sent ∧
      w.hasJob = sent.isSome ∧ story log w.id = sent.toList.map .sent := by
  rcases (h.each w hw).idle_or_serves with ⟨hstage, -, hsent⟩ | ⟨dispatch, done, hserves, -⟩
  · exact ⟨hstage, hsent⟩
  · cases started.symm.trans hserves.started

/-- A worker with a job that has no task has the job in its inbox. -/
theorem Accounts.waits (h : Accounts value log s)
    (started : s.started = false) (hw : w ∈ s.workers) (job : w.hasJob = true) :
    ∃ dispatch, w.inbox = .open (some dispatch) ∧
      story log w.id = [.sent dispatch] := by
  obtain ⟨-, sent, hinbox, hsent, hstory⟩ := h.idle started hw
  cases sent with
  | none => cases job.symm.trans hsent
  | some dispatch => exact ⟨dispatch, hinbox, hstory⟩

theorem Accounts.start (h : Accounts value log s) (started : s.started = false)
    (jobs : ∀ w ∈ s.workers, w.hasJob = true) :
    Accounts value log
      { s with
        workers := s.workers.map fun w => { w with stage := .waiting }
        started := true
        timer := true } := by
  have hcollected : s.collected = false := by
    rw [Bool.eq_false_iff]
    intro hcollected
    cases started.symm.trans (h.collected hcollected).1
  have hidle : ∀ w ∈ s.workers, w.stage = .idle := fun w hw => (h.idle started hw).1
  refine ⟨?_, ?_, ?_, ?_, h.queueOpen, ?_, ?_⟩
  · rw [List.map_map]
    exact h.ids
  · intro x hx
    obtain ⟨w, hw, rfl⟩ := List.mem_map.mp hx
    obtain ⟨dispatch, hinbox, hstory⟩ := h.waits started hw (jobs w hw)
    exact ⟨dispatch, ⟨rfl, jobs w hw, hstory⟩, hinbox⟩
  · intro id hnone
    refine h.silent id ?_
    intro w hw
    exact hnone { w with stage := .waiting } (List.mem_map_of_mem hw)
  · have hbefore : s.completed = 0 := by
      rw [h.completed, List.countP_eq_zero]
      intro w hw
      simp [hidle w hw, Stage.isOver]
    show s.completed = _
    rw [hbefore, eq_comm, List.countP_eq_zero]
    intro x hx
    obtain ⟨w, -, rfl⟩ := List.mem_map.mp hx
    simp [Stage.isOver]
  · intro _
    have hbefore : handedOver value s.workers = [] := by
      simp only [handedOver, List.map_eq_nil_iff, List.filter_eq_nil_iff]
      intro w hw
      simp [hidle w hw, Stage.handedOver]
    have hafter : handedOver value (s.workers.map fun w => { w with stage := .waiting }) = [] := by
      simp [handedOver, Stage.handedOver]
    show s.queue.Perm (handedOver value (s.workers.map fun w => { w with stage := .waiting }))
    rw [hafter, ← hbefore]
    exact h.queue hcollected
  · intro hcollected'
    cases hcollected.symm.trans hcollected'

theorem Accounts.collect (h : Accounts value log s) (started : s.started = true)
    (ended : s.isOver = true) : Accounts value log s.collect.2 := by
  rw [collect_after]
  refine ⟨h.ids, h.each, h.silent, h.completed, rfl, ?_, fun _ => ⟨started, ended⟩⟩
  intro hcollected
  cases hcollected

/-! ### The moves of a worker -/

theorem Accounts.send (h : Accounts value log s)
    (hw : s.worker? w.id = some w) (free : w.hasJob = false)
    (empty : w.inbox = .open none) (dispatch : Dispatch) :
    Accounts value (log ++ [⟨w.id, .sent dispatch⟩])
      (s.setWorker { w with hasJob := true, inbox := .open (some dispatch) }) := by
  rcases (h.accords hw).idle_or_serves with hidle | ⟨_, _, hserves, -⟩
  · obtain ⟨hstage, started, sent, hinbox, -, hstory⟩ := hidle
    cases empty.symm.trans hinbox
    have hquiet : w.stage.handedOver = false := by
      rw [hstage]
      rfl
    refine h.moveQuietly hw hquiet { w with hasJob := true, inbox := .open (some dispatch) } rfl
      hquiet (story_append_other _) id ?_
    simp only [Worker.Accords, hstage, story_append_own, hstory]
    exact ⟨started, some dispatch, rfl, rfl, rfl⟩
  · cases free.symm.trans hserves.hasJob

theorem Accounts.pickUp (h : Accounts value log s)
    (hw : s.worker? w.id = some w) (hstage : w.stage = .waiting)
    {dispatch : Dispatch} (hinbox : w.inbox = .open (some dispatch)) :
    Accounts value (log ++ [⟨w.id, .invoked dispatch⟩])
      (s.setWorker { w with
        state := .running, inbox := .open none
        stage := .working (dispatch.job w.id) dispatch.watched }) := by
  have own := h.accords hw
  simp only [Worker.Accords, hstage] at own
  obtain ⟨sent, hserves, hsent⟩ := own
  cases hinbox.symm.trans hsent
  refine h.moveQuietly hw (by rw [hstage]; rfl) { w with
    state := .running, inbox := .open none
    stage := .working (dispatch.job w.id) dispatch.watched } rfl rfl (story_append_other _) id ?_
  refine ⟨dispatch, [], ⟨hserves.started, hserves.hasJob, ?_⟩, rfl, fun _ => rfl⟩
  rw [story_append_own, hserves.story]
  rfl

theorem Accounts.abandon (h : Accounts value log s)
    (hw : s.worker? w.id = some w) (hstage : w.stage = .waiting)
    (cancelled : s.deadline.cancelled = true) :
    Accounts value log
      (s.setWorker { w with stage := .ended (.abandoned w.id) }) := by
  have own := h.accords hw
  simp only [Worker.Accords, hstage] at own
  obtain ⟨dispatch, hserves, -⟩ := own
  refine h.moveQuietly hw (by rw [hstage]; rfl) { w with stage := .ended (.abandoned w.id) } rfl rfl
    (fun _ _ => rfl) id ?_
  exact ⟨dispatch, [], hserves, .abandoned cancelled⟩

theorem Accounts.answer (h : Accounts value log s)
    (hw : s.worker? w.id = some w) {next : Bool → Job} {watched : Watched}
    (hstage : w.stage = .working (.asks next) watched) (done : Bool) :
    Accounts value (log ++ [⟨w.id, .answered done⟩])
      (s.setWorker { w with stage := .working (next done) watched }) := by
  have own := h.accords hw
  simp only [Worker.Accords, hstage] at own
  obtain ⟨dispatch, answers, hserves, hwatched, hending⟩ := own
  refine h.moveQuietly hw (by rw [hstage]; rfl) { w with stage := .working (next done) watched } rfl
    rfl (story_append_other _) id ?_
  refine ⟨dispatch, answers ++ [done], ⟨hserves.started, hserves.hasJob, ?_⟩, hwatched, ?_⟩
  · rw [story_append_own, hserves.story]
    simp
  · intro rest
    rw [List.append_assoc, hending]
    rfl

theorem Accounts.cancelByJob (h : Accounts value log s)
    (hw : s.worker? w.id = some w) {next : Job} {watched : Watched}
    (hstage : w.stage = .working (.cancels next) watched) {d b : Deadline}
    (cancelled : s.deadline.cancelled = true → d.cancelled = true) :
    Accounts value log
      { s.setWorker { w with stage := .working next watched } with
      deadline := d, beside := b } := by
  have own := h.accords hw
  simp only [Worker.Accords, hstage] at own
  exact h.moveQuietly hw (by rw [hstage]; rfl) { w with stage := .working next watched } rfl rfl
    (fun _ _ => rfl) cancelled own

theorem Accounts.endJob (h : Accounts value log s)
    (hw : s.worker? w.id = some w) {ending : Ending} {watched : Watched}
    (hstage : w.stage = .working (.ends ending) watched) :
    Accounts value log
      (s.setWorker { w with stage := .ended (ending.result w.id) }) := by
  have own := h.accords hw
  simp only [Worker.Accords, hstage] at own
  obtain ⟨dispatch, answers, hserves, -, hending⟩ := own
  have hended : (dispatch.job w.id).endingOn answers = some ending := by
    have hlast := hending []
    rw [List.append_nil] at hlast
    exact hlast
  refine h.moveQuietly hw (by rw [hstage]; rfl) { w with stage := .ended (ending.result w.id) } rfl
    rfl (fun _ _ => rfl) id ?_
  exact ⟨dispatch, _, hserves, .ofEnding hended⟩

theorem Accounts.mark (h : Accounts value log s)
    (hw : s.worker? w.id = some w) {result : JobResult}
    (hstage : w.stage = .ended result) :
    Accounts value log
      (s.setWorker { w with state := .finished, stage := .marked result }) := by
  have own := h.accords hw
  simp only [Worker.Accords, hstage] at own
  exact h.moveQuietly hw (by rw [hstage]; rfl)
    { w with state := .finished, stage := .marked result } rfl rfl (fun _ _ => rfl) id own

/-- The result goes on the queue, and becomes the value of its worker. -/
theorem Accounts.publish (h : Accounts value log s)
    (hw : s.worker? w.id = some w) {result : JobResult}
    (hstage : w.stage = .marked result) :
    Accounts (fun id => if id = w.id then result else value id) log
      ((if s.queueOpen then { s with queue := s.queue ++ [result] } else s).setWorker
        { w with stage := .published }) := by
  have hbusy : w.stage.isOver = false := by
    rw [hstage]
    rfl
  have hopen : s.queueOpen = true := by
    rw [h.queueOpen, h.not_collected hw hbusy]
    rfl
  have own := h.accords hw
  simp only [Worker.Accords, hstage] at own
  rw [if_pos hopen]
  refine h.move hw hbusy { w with stage := .published } rfl (fun _ _ => rfl)
    (fun id hne => if_neg hne) id ?_ rfl ?_
  · show ∃ dispatch done, _ ∧ Delivers _ _ _ _ (if w.id = w.id then result else value w.id)
    rw [if_pos rfl]
    exact own
  · intro rest hqueue
    rw [hstage] at hqueue
    simp only [Stage.handedOver, if_true]
    exact (hqueue.append_right [result]).trans List.perm_append_comm

theorem Accounts.count (h : Accounts value log s) (hw : s.worker? w.id = some w)
    (hstage : w.stage = .published) :
    Accounts value log
      ({ s with completed := s.completed + 1 }.setWorker
        { w with inbox := .closed, stage := .counted }) := by
  have own := h.accords hw
  simp only [Worker.Accords, hstage] at own
  refine h.move hw (by rw [hstage]; rfl) { w with inbox := .closed, stage := .counted } rfl
    (fun _ _ => rfl) (fun _ _ => rfl) id own rfl ?_
  intro rest hqueue
  rw [hstage] at hqueue
  exact hqueue

/-! ### Every change -/

theorem Accounts.unnoted
    (h : Accounts value log s) : Accounts value (log ++ []) s := by
  rw [List.append_nil]
  exact h

/-- Every change keeps the accounts balanced. -/
theorem Accounts.change {notes : List Note} {s' : Scheduler} {e : Event}
    (h : Accounts value log s) (change : Change s e notes s') :
    ∃ value', Accounts value' (log ++ notes) s' := by
  cases change with
  | refused _ => exact ⟨value, h.unnoted⟩
  | scheduled started free => exact ⟨value, (h.scheduled started free).unnoted⟩
  | sent hw free empty => exact ⟨value, h.send hw free empty _⟩
  | started started _ jobs _ => exact ⟨value, (h.start started jobs).unnoted⟩
  | collected started _ ended => exact ⟨value, (h.collect started ended).unnoted⟩
  | @cancelled watched =>
      cases watched with
      | run => exact ⟨value, .unnoted (h.setDeadlines fun _ => rfl)⟩
      | beside => exact ⟨value, .unnoted (h.setDeadlines id)⟩
  | @expired watched =>
      cases watched with
      | run => exact ⟨value, .unnoted (h.setDeadlines id)⟩
      | beside => exact ⟨value, .unnoted (h.setDeadlines id)⟩
  | rung _ _ => exact ⟨value, .unnoted (h.setDeadlines fun _ => rfl)⟩
  | pickedUp hw hstage hinbox _ => exact ⟨value, h.pickUp hw hstage hinbox⟩
  | abandoned hw hstage cancelled =>
      exact ⟨value, (h.abandon hw hstage cancelled).unnoted⟩
  | answered hw hstage => exact ⟨value, h.answer hw hstage _⟩
  | @cancelledByJob w next watched hw hstage =>
      cases watched with
      | run => exact ⟨value, .unnoted (h.cancelByJob hw hstage fun _ => rfl)⟩
      | beside => exact ⟨value, .unnoted (h.cancelByJob hw hstage id)⟩
  | jobEnded hw hstage => exact ⟨value, (h.endJob hw hstage).unnoted⟩
  | marked hw hstage => exact ⟨value, (h.mark hw hstage).unnoted⟩
  | published hw hstage => exact ⟨_, (h.publish hw hstage).unnoted⟩
  | counted hw hstage => exact ⟨value, (h.count hw hstage).unnoted⟩

end

/-- The accounts balance after every run. -/
theorem Accounts.runs {value : WorkerId → JobResult} {log more : List Note}
    {s s' : Scheduler} (h : Accounts value log s) (run : Runs s more s') :
    ∃ value', Accounts value' (log ++ more) s' := by
  refine run.keep (fun log s => ∃ value, Accounts value log s) ⟨value, h⟩ ?_
  intro log s s' e notes change balanced
  obtain ⟨value, h⟩ := balanced
  exact h.change change

/-- Whatever has happened to a new pool, its accounts balance. -/
theorem exists_accounts {timeout beside : Nat} {log : List Note}
    {s : Scheduler} (run : Runs (.new timeout beside) log s) :
    ∃ value, Accounts value log s := by
  have balanced := (accounts_new (fun id => .abandoned id) timeout beside).runs run
  rw [List.nil_append] at balanced
  exact balanced

end Scheduler
end CsvQuery
