/-
Histories of a pool.

A pool lives through events: a call of its owner, a deadline that someone
cancels, an action of a worker or of a clock.  `happen` says what an event
makes of the pool; a call that is refused leaves it alone, and `results`, which
waits, can only return when every task is over.  A run is any finite sequence
of events, so a statement about every run is one about every interleaving.

The log of a run notes what the pool itself forgets: which jobs were sent and
invoked, and what a job was told when it asked for its deadline.

`Change` lists what an event can do, with all its guards.  It is the one place
where the code of the calls and actions is opened; the invariants of the pool
are proved from it.
-/
import CsvQuery.Scheduler.Basic

namespace CsvQuery

/-- Is a task over? -/
def Stage.isOver : Stage → Bool
  | .counted => true
  | _ => false

theorem Stage.eq_counted {stage : Stage}
    (h : stage.isOver = true) : stage = .counted := by
  unfold isOver at h
  split at h
  · rfl
  · cases h

/-- A worker that has just been scheduled. -/
def Worker.fresh (id : WorkerId) : Worker :=
  { id, state := .scheduled, hasJob := false, inbox := .open none, stage := .idle }

namespace Scheduler

/-- Are all its tasks over? -/
def isOver (s : Scheduler) : Bool :=
  s.workers.all fun w => w.stage.isOver

/-! ## Events -/

inductive Event where
  | schedule (id : WorkerId)
  | send (id : WorkerId) (dispatch : Dispatch)
  | start
  | results
  /-- Someone who holds a deadline cancels it; for the run's own this is also
  `close`. -/
  | cancel (watched : Watched)
  | act (action : Action)

/-- The pool after an event; none when it cannot happen now. -/
def happen (s : Scheduler) : Event → Option Scheduler
  | .schedule id => some ((s.schedule id).toOption.getD s)
  | .send id dispatch => some ((s.send id dispatch).toOption.getD s)
  | .start => some (s.start.toOption.getD s)
  | .results =>
    if s.started && !s.collected && !s.isOver then none
    else some s.results.2
  | .cancel watched => some (s.setDeadline (s.deadlineOf watched).cancel watched)
  | .act action => s.step action

/-- What there is to note about a worker. -/
inductive Deed where
  | sent (dispatch : Dispatch)
  | invoked (dispatch : Dispatch)
  /-- The job was told whether its deadline is done. -/
  | answered (done : Bool)

structure Note where
  id : WorkerId
  deed : Deed

/-- What an event that happens adds to the log. -/
def notes (s : Scheduler) : Event → List Note
  | .send id dispatch =>
    match s.send id dispatch with
    | .ok _ => [⟨id, .sent dispatch⟩]
    | .error _ => []
  | .act (.pickUp id) =>
    match (s.worker? id).map Worker.inbox with
    | some (.open (some dispatch)) => [⟨id, .invoked dispatch⟩]
    | _ => []
  | .act (.work id) =>
    match (s.worker? id).map Worker.stage with
    | some (.working (.asks _) watched) => [⟨id, .answered (s.deadlineOf watched).done⟩]
    | _ => []
  | _ => []

/-- What a log says of one worker, oldest first. -/
def story (log : List Note) (id : WorkerId) : List Deed :=
  log.filterMap fun note => if note.id = id then some note.deed else none

theorem story_append (log more : List Note) (id : WorkerId) :
    story (log ++ more) id = story log id ++ story more id :=
  List.filterMap_append

theorem story_append_own (log : List Note) (id : WorkerId) (deed : Deed) :
    story (log ++ [⟨id, deed⟩]) id = story log id ++ [deed] := by
  simp [story]

/-- A note about one worker changes no other's story. -/
theorem story_append_other {log : List Note} {i : WorkerId} (deed : Deed) :
    ∀ id, id ≠ i → story (log ++ [⟨i, deed⟩]) id = story log id := by
  intro id hne
  simp [story, Ne.symm hne]

theorem mem_story {log : List Note} {id : WorkerId} {deed : Deed} :
    deed ∈ story log id ↔ ⟨id, deed⟩ ∈ log := by
  simp only [story, List.mem_filterMap, Option.ite_none_right_eq_some,
    Option.some.injEq]
  constructor
  · rintro ⟨note, hnote, rfl, rfl⟩
    exact hnote
  · intro h
    exact ⟨⟨id, deed⟩, h, rfl, rfl⟩

/-- The runs of a pool, with their logs. -/
inductive Runs : Scheduler → List Note → Scheduler → Prop
  | refl (s : Scheduler) : Runs s [] s
  | snoc {s s' s'' : Scheduler} {log : List Note} {e : Event} :
      Runs s log s' → s'.happen e = some s'' → Runs s (log ++ s'.notes e) s''

theorem Runs.trans {s s' s'' : Scheduler} {log more : List Note}
    (first : Runs s log s')
    (second : Runs s' more s'') : Runs s (log ++ more) s'' := by
  induction second with
  | refl => rw [List.append_nil]; exact first
  | snoc _ h ih => rw [← List.append_assoc]; exact .snoc ih h

/-- The run that events make one after the other, if each can happen in its
turn. -/
def play (s : Scheduler) : List Event → Option (List Note × Scheduler)
  | [] => some ([], s)
  | e :: es =>
    (s.happen e).bind fun s' => (s'.play es).map fun (log, last) => (s.notes e ++ log, last)

theorem runs_of_play (es : List Event) :
    ∀ {s s' : Scheduler} {log : List Note}, s.play es = some (log, s') →
      Runs s log s' := by
  induction es with
  | nil =>
      intro s s' log h
      cases h
      exact .refl s
  | cons e es ih =>
      intro s s' log h
      obtain ⟨next, hnext, hrest⟩ := Option.bind_eq_some_iff.mp h
      obtain ⟨⟨more, last⟩, hplay, heq⟩ := Option.map_eq_some_iff.mp hrest
      cases heq
      have hfirst : Runs s (s.notes e) next := .snoc (.refl s) hnext
      exact hfirst.trans (ih hplay)

/-! ## Workers of a pool -/

section
variable {s : Scheduler} {id : WorkerId} {w w' : Worker}

theorem mem_of_worker? (h : s.worker? id = some w) : w ∈ s.workers :=
  List.mem_of_find?_eq_some h

theorem id_of_worker? (h : s.worker? id = some w) : w.id = id := by
  simpa using List.find?_some h

theorem worker?_eq_none
    (h : s.worker? id = none) : ∀ w ∈ s.workers, w.id ≠ id := by
  intro w hw hid
  exact List.find?_eq_none.mp h w hw (beq_iff_eq.mpr hid)

theorem worker?_of_mem (ids : (s.workers.map Worker.id).Nodup)
    (hw : w ∈ s.workers) :
    s.worker? w.id = some w := by
  obtain ⟨front, back, hsplit⟩ := List.append_of_mem hw
  rw [hsplit, List.map_append, List.map_cons] at ids
  have hfront : ∀ x ∈ front, (x.id == w.id) = false := by
    intro x hx
    have hne := (List.nodup_append.mp ids).2.2 x.id (List.mem_map_of_mem hx) w.id
      List.mem_cons_self
    exact beq_false_of_ne hne
  rw [worker?, hsplit, List.find?_append, List.find?_eq_none.mpr (by simpa using hfront),
    Option.none_or]
  exact List.find?_cons_of_pos (beq_self_eq_true w.id)

theorem insertWorker_perm (w : Worker) (ws : List Worker) :
    (insertWorker w ws).Perm (w :: ws) := by
  induction ws with
  | nil => exact .refl _
  | cons old rest ih =>
      unfold insertWorker
      split
      · exact .refl _
      · exact (ih.cons old).trans (.swap w old rest)

@[simp] theorem setWorker_ids (s : Scheduler) (w : Worker) :
    (s.setWorker w).workers.map Worker.id = s.workers.map Worker.id := by
  rw [setWorker, List.map_map]
  apply List.map_congr_left
  intro old _
  by_cases h : old.id = w.id
  · simp [h]
  · simp [h]

theorem worker?_setWorker (s : Scheduler) (w : Worker) (id : WorkerId) :
    (s.setWorker w).worker? id
      = (s.worker? id).map fun old => if old.id = w.id then w else old := by
  unfold worker? setWorker
  rw [List.find?_map]
  congr 2
  funext old
  by_cases h : old.id = w.id
  · simp [h]
  · simp [h]

theorem worker?_setWorker_self (hw : s.worker? w.id = some w) (w' : Worker)
    (hid : w'.id = w.id) :
    (s.setWorker w').worker? w.id = some w' := by
  rw [worker?_setWorker, hw, Option.map_some, if_pos hid.symm]

/-- A worker of the pool and the others.  Replacing it leaves the others
alone. -/
theorem split_workers (ids : (s.workers.map Worker.id).Nodup)
    (hw : w ∈ s.workers) :
    ∃ others : List Worker,
      s.workers.Perm (w :: others) ∧ (∀ x ∈ others, x.id ≠ w.id) ∧
      ∀ w' : Worker, w'.id = w.id →
        (s.setWorker w').workers.Perm (w' :: others) := by
  obtain ⟨front, back, hsplit⟩ := List.append_of_mem hw
  have hperm : s.workers.Perm (w :: (front ++ back)) := hsplit ▸ List.perm_middle
  have hothers : ∀ x ∈ front ++ back, x.id ≠ w.id := by
    have hnodup := (hperm.map Worker.id).nodup_iff.mp ids
    intro x hx hid
    exact (List.nodup_cons.mp hnodup).1 (hid ▸ List.mem_map_of_mem hx)
  refine ⟨front ++ back, hperm, hothers, ?_⟩
  intro w' hid
  have hkeep : ∀ part : List Worker, (∀ x ∈ part, x ∈ front ++ back) →
      (part.map fun old => if old.id = w'.id then w' else old) = part := by
    intro part hpart
    refine (List.map_congr_left ?_).trans (List.map_id part)
    intro x hx
    exact if_neg (hid ▸ hothers x (hpart x hx))
  rw [setWorker, hsplit, List.map_append, List.map_cons, if_pos hid.symm,
    hkeep front (fun x => List.mem_append_left back),
    hkeep back (fun x => List.mem_append_right front)]
  exact List.perm_middle

end

/-! ## A pool whose tasks are over -/

section
variable {s : Scheduler}

theorem stage_of_isOver (h : s.isOver = true) {w : Worker}
    (hw : w ∈ s.workers) :
    w.stage = .counted :=
  Stage.eq_counted (List.all_eq_true.mp h w hw)

/-- No worker acts any more. -/
theorem attempt_of_isOver (h : s.isOver = true) (id : WorkerId) :
    s.attempt (.pickUp id) = s ∧ s.attempt (.abandon id) = s ∧
    s.attempt (.mark id) = s ∧
      s.attempt (.publish id) = s ∧ s.attempt (.count id) = s := by
  cases hw : s.worker? id with
  | none => simp [attempt, step, hw]
  | some w =>
      have hstage := stage_of_isOver h (mem_of_worker? hw)
      simp [attempt, step, hw, pickUp, abandon, mark, publish, count, hstage]

theorem settle_of_isOver (h : s.isOver = true) : s.settle = s := by
  have hdispatch : ∀ id, s.dispatchWorker id = s := by
    intro id
    obtain ⟨hpick, habandon, -⟩ := attempt_of_isOver h id
    rw [dispatchWorker, hpick, habandon]
  have hfinish : ∀ id, s.finishWorker id = s := by
    intro id
    obtain ⟨-, -, hmark, hpublish, hcount⟩ := attempt_of_isOver h id
    unfold finishWorker
    cases hw : s.worker? id with
    | none => simp [hmark, hpublish, hcount]
    | some w =>
        simp [stage_of_isOver h (mem_of_worker? hw), hmark, hpublish, hcount]
  have hfold : ∀ (f : Scheduler → WorkerId → Scheduler) (ids : List WorkerId),
      (∀ id, f s id = s) → ids.foldl f s = s := by
    intro f ids hf
    induction ids with
    | nil => rfl
    | cons id ids ih => rw [List.foldl_cons, hf id, ih]
  simp only [settle, hfold _ _ hdispatch, hfold _ _ hfinish]

/-- Once all tasks are over, the results are there to be taken. -/
theorem results_of_isOver (started : s.started = true)
    (collected : s.collected = false)
    (h : s.isOver = true) : s.results = s.collect := by
  simp [results, started, collected, settle_of_isOver h]

end

theorem collect_after (s : Scheduler) : s.collect.2
    = { s with queue := [], queueOpen := false, collected := true, timer := false } := by
  unfold collect
  split <;> rfl

/-! ## What an event does -/

/-- A call that fails. -/
def Refuses (s : Scheduler) : Event → Prop
  | .schedule id => ∃ error, s.schedule id = .error error
  | .send id dispatch => ∃ error, s.send id dispatch = .error error
  | .start => ∃ error, s.start = .error error
  | .results => s.started = false ∨ s.collected = true
  | _ => False

/-- What an event can do, what it notes, and when. -/
inductive Change (s : Scheduler) : Event → List Note → Scheduler → Prop
  | refused {e : Event} : s.Refuses e → Change s e [] s
  | scheduled {id : WorkerId} : s.started = false → s.worker? id = none →
      Change s (.schedule id) []
        { s with workers := insertWorker (.fresh id) s.workers }
  | sent {w : Worker} {dispatch : Dispatch} : s.worker? w.id = some w →
      w.hasJob = false →
      w.inbox = .open none →
      Change s (.send w.id dispatch) [⟨w.id, .sent dispatch⟩]
        (s.setWorker { w with hasJob := true, inbox := .open (some dispatch) })
  | started : s.started = false → s.workers ≠ [] →
      (∀ w ∈ s.workers, w.hasJob = true) →
      s.queueOpen = true →
      Change s .start []
        { s with
          workers := s.workers.map fun w => { w with stage := .waiting }
          started := true
          timer := true }
  | collected : s.started = true → s.collected = false → s.isOver = true →
      Change s .results [] s.collect.2
  | cancelled {watched : Watched} :
      Change s (.cancel watched) []
        (s.setDeadline (s.deadlineOf watched).cancel watched)
  | expired {watched : Watched} :
      Change s (.act (.expire watched)) []
        (s.setDeadline (s.deadlineOf watched).expire watched)
  | rung : s.timer = true → s.deadline.expired = true →
      Change s (.act .ring) [] s.close
  | pickedUp {w : Worker} {dispatch : Dispatch} : s.worker? w.id = some w →
      w.stage = .waiting →
      w.inbox = .open (some dispatch) → s.deadline.cancelled = false →
      Change s (.act (.pickUp w.id)) [⟨w.id, .invoked dispatch⟩]
        (s.setWorker { w with
          state := .running, inbox := .open none
          stage := .working (dispatch.job w.id) dispatch.watched })
  | abandoned {w : Worker} : s.worker? w.id = some w → w.stage = .waiting →
      s.deadline.cancelled = true →
      Change s (.act (.abandon w.id)) []
        (s.setWorker { w with stage := .ended (.abandoned w.id) })
  | answered {w : Worker} {next : Bool → Job} {watched : Watched} :
      s.worker? w.id = some w →
      w.stage = .working (.asks next) watched →
      Change s (.act (.work w.id))
        [⟨w.id, .answered (s.deadlineOf watched).done⟩]
        (s.setWorker { w with stage := .working (next (s.deadlineOf watched).done) watched })
  | cancelledByJob {w : Worker} {next : Job} {watched : Watched} :
      s.worker? w.id = some w →
      w.stage = .working (.cancels next) watched →
      Change s (.act (.work w.id)) []
        ((s.setDeadline (s.deadlineOf watched).cancel watched).setWorker
          { w with stage := .working next watched })
  | jobEnded {w : Worker} {ending : Ending} {watched : Watched} :
      s.worker? w.id = some w →
      w.stage = .working (.ends ending) watched →
      Change s (.act (.work w.id)) []
        (s.setWorker { w with stage := .ended (ending.result w.id) })
  | marked {w : Worker} {result : JobResult} : s.worker? w.id = some w →
      w.stage = .ended result →
      Change s (.act (.mark w.id)) []
        (s.setWorker { w with state := .finished, stage := .marked result })
  | published {w : Worker} {result : JobResult} : s.worker? w.id = some w →
      w.stage = .marked result →
      Change s (.act (.publish w.id)) []
        ((if s.queueOpen then { s with queue := s.queue ++ [result] } else s).setWorker
          { w with stage := .published })
  | counted {w : Worker} : s.worker? w.id = some w → w.stage = .published →
      Change s (.act (.count w.id)) []
        ({ s with completed := s.completed + 1 }.setWorker
          { w with inbox := .closed, stage := .counted })

section
variable {s s' : Scheduler}

theorem change_of_schedule (s : Scheduler) (id : WorkerId) :
    s.Change (.schedule id) [] ((s.schedule id).toOption.getD s) := by
  cases h : s.schedule id with
  | error error =>
      refine .refused ?_
      exact ⟨error, h⟩
  | ok s' =>
      unfold schedule at h
      split at h
      · cases h
      split at h
      · cases h
      next hstarted hid =>
        cases h
        exact .scheduled (Bool.eq_false_iff.mpr hstarted) (Option.not_isSome_iff_eq_none.mp hid)

theorem change_of_send (s : Scheduler) (id : WorkerId) (dispatch : Dispatch) :
    s.Change (.send id dispatch) (s.notes (.send id dispatch))
      ((s.send id dispatch).toOption.getD s) := by
  simp only [notes]
  cases h : s.send id dispatch with
  | error error =>
      refine .refused ?_
      exact ⟨error, h⟩
  | ok s' =>
      unfold send at h
      split at h
      · cases h
      next w hw =>
        obtain rfl := id_of_worker? hw
        split at h
        · cases h
        next hjob =>
          split at h
          next hinbox =>
            cases h
            exact .sent hw (Bool.eq_false_iff.mpr hjob) hinbox
          · cases h
          · cases h

theorem change_of_start (s : Scheduler) :
    s.Change .start [] (s.start.toOption.getD s) := by
  cases h : s.start with
  | error error =>
      refine .refused ?_
      exact ⟨error, h⟩
  | ok s' =>
      unfold start at h
      split at h
      · cases h
      next hstarted =>
        split at h
        · cases h
        next hworkers =>
          split at h
          · cases h
          next hjobs =>
            split at h
            next hqueue =>
              cases h
              refine .started (Bool.eq_false_iff.mpr hstarted) ?_ ?_ hqueue
              · intro hnil
                exact hworkers (List.isEmpty_iff.mpr hnil)
              · simpa using hjobs
            · cases h

/-- Before the start a worker is there once it is scheduled, be it new or
not. -/
theorem mem_ids_schedule (started : s.started = false) (new id : WorkerId) :
    id ∈ ((s.schedule new).toOption.getD s).workers.map Worker.id
      ↔ id ∈ s.workers.map Worker.id ∨ id = new := by
  cases hworker : s.worker? new with
  | some w =>
      have hmem : new ∈ s.workers.map Worker.id :=
        id_of_worker? hworker ▸ List.mem_map_of_mem (mem_of_worker? hworker)
      have hrefused : (s.schedule new).toOption.getD s = s := by
        simp [schedule, started, hworker, Except.toOption]
      rw [hrefused]
      constructor
      · exact .inl
      · rintro (h | rfl)
        · exact h
        · exact hmem
  | none =>
      have hnew : (s.schedule new).toOption.getD s
          = { s with workers := insertWorker (.fresh new) s.workers } := by
        simp [schedule, started, hworker, Except.toOption, Worker.fresh]
      rw [hnew, ((insertWorker_perm (.fresh new) s.workers).map Worker.id).mem_iff, List.map_cons,
        List.mem_cons]
      exact Or.comm

/-- What an accepted job has done. -/
theorem of_send_eq_ok {id : WorkerId} {dispatch : Dispatch}
    (h : s.send id dispatch = .ok s') :
    ∃ w, w.id = id ∧ s.worker? id = some w ∧
      s' = s.setWorker
        { w with hasJob := true, inbox := .open (some dispatch) } := by
  have hchange : Change s (.send id dispatch) (s.notes (.send id dispatch)) s' := by
    have := change_of_send s id dispatch
    rwa [h] at this
  generalize s.notes (.send id dispatch) = notes at hchange
  cases hchange with
  | refused hrefuses =>
      obtain ⟨error, herror⟩ := hrefuses
      cases h.symm.trans herror
  | sent hw => exact ⟨_, rfl, hw, rfl⟩

/-- What a start that succeeds found, and what it has done. -/
theorem of_start_eq_ok (h : s.start = .ok s') :
    s.started = false ∧ s.workers ≠ [] ∧ (∀ w ∈ s.workers, w.hasJob = true) ∧
      s' = { s with
        workers := s.workers.map fun w => { w with stage := .waiting }
        started := true
        timer := true } := by
  have hchange : Change s .start [] s' := by
    have := change_of_start s
    rwa [h] at this
  cases hchange with
  | refused hrefuses =>
      obtain ⟨error, herror⟩ := hrefuses
      cases h.symm.trans herror
  | started notStarted workers jobs _ => exact ⟨notStarted, workers, jobs, rfl⟩

theorem change_of_results
    (h : s.happen .results = some s') : s.Change .results [] s' := by
  cases hstarted : s.started with
  | false =>
      simp only [happen, results, hstarted] at h
      cases h
      exact .refused (.inl hstarted)
  | true =>
    cases hcollected : s.collected with
    | true =>
        simp only [happen, results, hstarted, hcollected] at h
        cases h
        exact .refused (.inr hcollected)
    | false =>
      cases hover : s.isOver with
      | false => simp [happen, hstarted, hcollected, hover] at h
      | true =>
          rw [happen, hover, results_of_isOver hstarted hcollected hover] at h
          simp only [Bool.not_true, Bool.and_false, Bool.false_eq_true, if_false] at h
          cases h
          exact .collected hstarted hcollected hover

/-- The worker that acts, and what it does. -/
theorem acting {id : WorkerId} {act : Worker → Option Scheduler}
    (h : (s.worker? id).bind act = some s') :
    ∃ w, s.worker? w.id = some w ∧ w.id = id ∧ act w = some s' := by
  obtain ⟨w, hw, hact⟩ := Option.bind_eq_some_iff.mp h
  obtain rfl := id_of_worker? hw
  exact ⟨w, hw, rfl, hact⟩

theorem change_of_step {a : Action} (h : s.step a = some s') :
    s.Change (.act a) (s.notes (.act a)) s' := by
  cases a with
  | pickUp id =>
      obtain ⟨w, hw, rfl, hact⟩ := acting h
      unfold pickUp at hact
      split at hact
      next dispatch hstage hinbox =>
        split at hact
        · cases hact
        next hcancelled =>
          cases hact
          simp only [notes, hw, Option.map_some, hinbox]
          exact .pickedUp hw hstage hinbox (Bool.eq_false_iff.mpr hcancelled)
      · cases hact
  | abandon id =>
      obtain ⟨w, hw, rfl, hact⟩ := acting h
      unfold abandon at hact
      split at hact
      next hstage =>
        split at hact
        next hcancelled =>
          cases hact
          exact .abandoned hw hstage hcancelled
        · cases hact
      · cases hact
  | work id =>
      obtain ⟨w, hw, rfl, hact⟩ := acting h
      unfold work at hact
      split at hact
      next hstage =>
        cases hact
        simp only [notes, hw, Option.map_some, hstage]
        exact .jobEnded hw hstage
      next hstage =>
        cases hact
        simp only [notes, hw, Option.map_some, hstage]
        exact .answered hw hstage
      next hstage =>
        cases hact
        simp only [notes, hw, Option.map_some, hstage]
        exact .cancelledByJob hw hstage
      · cases hact
  | mark id =>
      obtain ⟨w, hw, rfl, hact⟩ := acting h
      unfold mark at hact
      split at hact
      next hstage =>
        cases hact
        exact .marked hw hstage
      · cases hact
  | publish id =>
      obtain ⟨w, hw, rfl, hact⟩ := acting h
      unfold publish at hact
      split at hact
      next hstage =>
        cases hact
        exact .published hw hstage
      · cases hact
  | count id =>
      obtain ⟨w, hw, rfl, hact⟩ := acting h
      unfold count at hact
      split at hact
      next hstage =>
        cases hact
        exact .counted hw hstage
      · cases hact
  | expire watched =>
      cases h
      exact .expired
  | ring =>
      simp only [step] at h
      split at h
      next hring =>
        cases h
        obtain ⟨htimer, hexpired⟩ := Bool.and_eq_true_iff.mp hring
        exact .rung htimer hexpired
      · cases h

/-- Whatever happens is one of the changes. -/
theorem change_of_happen {e : Event}
    (h : s.happen e = some s') : s.Change e (s.notes e) s' := by
  cases e with
  | schedule id => cases h; exact change_of_schedule s id
  | send id dispatch => cases h; exact change_of_send s id dispatch
  | start => cases h; exact change_of_start s
  | results => exact change_of_results h
  | cancel watched => cases h; exact .cancelled
  | act a => exact change_of_step h

end

/-- Once started, a pool keeps its workers, and only `results` collects them. -/
theorem Change.samePool {s s' : Scheduler} {e : Event} {notes : List Note}
    (change : Change s e notes s') (started : s.started = true) :
    s'.workers.map Worker.id = s.workers.map Worker.id ∧ s'.started = true ∧
      (s'.collected = s.collected ∨ e = .results) := by
  cases change with
  | refused => exact ⟨rfl, started, .inl rfl⟩
  | scheduled notStarted => cases notStarted.symm.trans started
  | started notStarted => cases notStarted.symm.trans started
  | collected =>
      rw [collect_after]
      exact ⟨rfl, started, .inr rfl⟩
  | @cancelled watched => cases watched <;> exact ⟨rfl, started, .inl rfl⟩
  | @expired watched => cases watched <;> exact ⟨rfl, started, .inl rfl⟩
  | rung => exact ⟨rfl, started, .inl rfl⟩
  | @cancelledByJob w next watched =>
      cases watched <;> exact ⟨setWorker_ids _ _, started, .inl rfl⟩
  | published => split <;> exact ⟨setWorker_ids _ _, started, .inl rfl⟩
  | _ => exact ⟨setWorker_ids _ _, started, .inl rfl⟩

/-- What every change keeps holds after every run. -/
theorem Runs.keep (holds : List Note → Scheduler → Prop) {s s' : Scheduler}
    {log before : List Note} (run : Runs s log s') (first : holds before s)
    (step : ∀ {log s s' e notes}, Change s e notes s' → holds log s →
        holds (log ++ notes) s') :
    holds (before ++ log) s' := by
  induction run with
  | refl => rw [List.append_nil]; exact first
  | snoc _ h ih => rw [← List.append_assoc]; exact step (change_of_happen h) ih

theorem Runs.samePool {s s' : Scheduler} {log : List Note} (run : Runs s log s')
    (started : s.started = true) :
    s'.workers.map Worker.id = s.workers.map Worker.id ∧ s'.started = true := by
  induction run with
  | refl => exact ⟨rfl, started⟩
  | snoc _ h ih =>
      obtain ⟨hids, hstarted, -⟩ := (change_of_happen h).samePool ih.2
      exact ⟨hids.trans ih.1, hstarted⟩

end Scheduler
end CsvQuery
