/-
Waiting for the workers ends.

`settle` lets every worker act in turn.  It is a run like any other, as it
consists of attempted actions, and it is a complete one: a worker that waits
has its job in its inbox, and from there every attempt takes its task one stage
further.  `Stage.rank` counts the stages; no action of any worker takes
another's task back.
-/
import CsvQuery.Proofs.Scheduler.Accounts

namespace CsvQuery

/-- The stages of a task, in order. -/
def Stage.rank : Stage → Nat
  | .idle => 0
  | .waiting => 1
  | .working _ _ => 2
  | .ended _ => 3
  | .marked _ => 4
  | .published => 5
  | .counted => 6

theorem Stage.isOver_of_rank {stage : Stage}
    (h : 6 ≤ stage.rank) : stage.isOver = true := by
  cases stage with
  | counted => rfl
  | _ => simp [Stage.rank] at h

namespace Scheduler

/-! ## Attempts -/

/-- The pools that attempted actions lead to. -/
inductive Attempts : Scheduler → Scheduler → Prop
  | refl (s : Scheduler) : Attempts s s
  | snoc {s s' : Scheduler} (a : Action) : Attempts s s' →
      Attempts s (s'.attempt a)

theorem Attempts.trans {s s' s'' : Scheduler} (first : Attempts s s')
    (second : Attempts s' s'') :
    Attempts s s'' := by
  induction second with
  | refl => exact first
  | snoc a _ ih => exact .snoc a ih

theorem Attempts.single (s : Scheduler)
    (a : Action) : Attempts s (s.attempt a) :=
  .snoc a (.refl s)

/-- What the actions keep, attempts keep. -/
theorem Attempts.keep (holds : Scheduler → Prop) {s s' : Scheduler}
    (h : Attempts s s') (first : holds s)
    (step : ∀ {s s' a}, s.step a = some s' → holds s → holds s') :
    holds s' := by
  induction h with
  | refl => exact first
  | @snoc s' a _ ih =>
      unfold attempt
      cases hstep : s'.step a with
      | none => exact ih
      | some s'' => exact step hstep ih

theorem Attempts.runs {s s' : Scheduler}
    (h : Attempts s s') : ∃ log, Runs s log s' := by
  refine h.keep (fun s' => ∃ log, Runs s log s') ⟨[], .refl s⟩ ?_
  intro s₁ s₂ a hstep hrun
  obtain ⟨log, hrun⟩ := hrun
  exact ⟨_, hrun.snoc (e := .act a) hstep⟩

section
variable (s : Scheduler) (id : WorkerId)

theorem attempts_workThrough (watched : Watched) (job : Job) :
    ∀ s, Attempts s (workThrough id watched job s) := by
  induction job with
  | ends ending => exact fun s => .single s _
  | asks next ih => exact fun s => (Attempts.single s _).trans (ih _ _)
  | cancels next ih => exact fun s => (Attempts.single s _).trans (ih _)

theorem attempts_dispatchWorker : Attempts s (s.dispatchWorker id) :=
  .snoc _ (.single s _)

theorem attempts_finishWorker : Attempts s (s.finishWorker id) := by
  unfold finishWorker
  refine .snoc _ (.snoc _ (.snoc _ ?_))
  split
  · exact attempts_workThrough id _ _ s
  · exact .refl s

theorem attempts_foldl {f : Scheduler → WorkerId → Scheduler}
    (hf : ∀ s id, Attempts s (f s id))
    (ids : List WorkerId) : Attempts s (ids.foldl f s) := by
  induction ids generalizing s with
  | nil => exact .refl s
  | cons id ids ih => exact (hf s id).trans (ih (f s id))

theorem attempts_settle : Attempts s s.settle :=
  (attempts_foldl s attempts_dispatchWorker _).trans (attempts_foldl _ attempts_finishWorker _)

end

/-! ## Progress -/

/-- The task of a worker has come as far as the stage of a rank. -/
def Reached (s : Scheduler) (id : WorkerId) (rank : Nat) : Prop :=
  ∃ w, s.worker? id = some w ∧ rank ≤ w.stage.rank

section
variable {s s' : Scheduler} {id : WorkerId} {rank : Nat} {w w' : Worker}

theorem Reached.le {lower : Nat} (h : s.Reached id rank) (hle : lower ≤ rank) :
    s.Reached id lower := by
  obtain ⟨w, hw, hrank⟩ := h
  exact ⟨w, hw, Nat.le_trans hle hrank⟩

theorem Reached.setWorker (h : s.Reached id rank)
    (hw : s.worker? w.id = some w) (w' : Worker) (hid : w'.id = w.id)
    (forward : w.stage.rank ≤ w'.stage.rank) :
    (s.setWorker w').Reached id rank := by
  obtain ⟨x, hx, hrank⟩ := h
  by_cases hxw : x.id = w'.id
  · have hxid := id_of_worker? hx
    have heq : x = w := by
      have hsame : s.worker? w.id = some x := by rw [← hid, ← hxw, hxid]; exact hx
      exact Option.some.inj (hsame.symm.trans hw)
    refine ⟨w', by rw [worker?_setWorker, hx, Option.map_some, if_pos hxw], ?_⟩
    rw [heq] at hrank
    exact Nat.le_trans hrank forward
  · exact ⟨x, by rw [worker?_setWorker, hx, Option.map_some, if_neg hxw], hrank⟩

/-- The worker that moves is as far as it has moved. -/
theorem reached_setWorker (hw : s.worker? w.id = some w) (w' : Worker)
    (hid : w'.id = w.id) :
    (s.setWorker w').Reached w.id w'.stage.rank :=
  ⟨w', worker?_setWorker_self hw w' hid, Nat.le_refl _⟩

theorem Reached.step {a : Action} (h : s.Reached id rank)
    (hstep : s.step a = some s') :
    s'.Reached id rank := by
  obtain ⟨notes, change⟩ : ∃ notes, Change s (.act a) notes s' :=
    ⟨_, change_of_step hstep⟩
  cases change with
  | refused hrefuses => cases hrefuses
  | @expired watched => cases watched <;> exact h
  | rung => exact h
  | pickedUp hw hstage => exact h.setWorker hw _ rfl (by simp [hstage, Stage.rank])
  | abandoned hw hstage => exact h.setWorker hw _ rfl (by simp [hstage, Stage.rank])
  | answered hw hstage => exact h.setWorker hw _ rfl (by simp [hstage, Stage.rank])
  | @cancelledByJob w next watched hw hstage =>
      have hset := h.setWorker hw { w with stage := .working next watched } rfl
        (by simp [hstage, Stage.rank])
      cases watched <;> exact hset
  | jobEnded hw hstage => exact h.setWorker hw _ rfl (by simp [hstage, Stage.rank])
  | marked hw hstage => exact h.setWorker hw _ rfl (by simp [hstage, Stage.rank])
  | @published w result hw hstage =>
      have hset := h.setWorker hw { w with stage := .published } rfl
        (by simp [hstage, Stage.rank])
      split <;> exact hset
  | counted hw hstage => exact h.setWorker hw _ rfl (by simp [hstage, Stage.rank])

theorem Reached.attempts (h : s.Reached id rank) (attempts : Attempts s s') :
    s'.Reached id rank :=
  attempts.keep (fun s => s.Reached id rank) h fun hstep h => h.step hstep

theorem attempt_eq {a : Action}
    (h : s.step a = some s') : s.attempt a = s' := by
  rw [attempt, h, Option.getD_some]

theorem attempt_eq_self {a : Action}
    (h : s.step a = none) : s.attempt a = s := by
  rw [attempt, h, Option.getD_none]

/-- An attempt takes a task further if it does so from the very stage. -/
theorem Reached.further {a : Action} (h : s.Reached id rank)
    (hat : ∀ w, s.worker? w.id = some w → w.id = id → w.stage.rank = rank →
      (s.attempt a).Reached id (rank + 1)) :
    (s.attempt a).Reached id (rank + 1) := by
  obtain ⟨w, hw, hrank⟩ := h
  obtain rfl := id_of_worker? hw
  rcases Nat.eq_or_lt_of_le hrank with heq | hlt
  · exact hat w hw rfl heq.symm
  · have hreached : s.Reached w.id (rank + 1) := ⟨w, hw, hlt⟩
    exact hreached.attempts (.single s a)

theorem reached_mark (h : s.Reached id 3) :
    (s.attempt (.mark id)).Reached id 4 := by
  refine h.further ?_
  rintro w hw rfl hrank
  cases hstage : w.stage with
  | ended result =>
      have hact : s.step (.mark w.id)
          = some (s.setWorker { w with state := .finished, stage := .marked result }) := by
        simp [step, hw, mark, hstage]
      rw [attempt_eq hact]
      exact reached_setWorker hw { w with state := .finished, stage := .marked result } rfl
  | _ => simp [hstage, Stage.rank] at hrank

theorem reached_publish (h : s.Reached id 4) :
    (s.attempt (.publish id)).Reached id 5 := by
  refine h.further ?_
  rintro w hw rfl hrank
  cases hstage : w.stage with
  | marked result =>
      have hact : s.step (.publish w.id)
          = some ((if s.queueOpen then { s with queue := s.queue ++ [result] } else s).setWorker
              { w with stage := .published }) := by
        simp [step, hw, publish, hstage]
      rw [attempt_eq hact]
      have hset := reached_setWorker hw { w with stage := .published } rfl
      split <;> exact hset
  | _ => simp [hstage, Stage.rank] at hrank

theorem reached_count (h : s.Reached id 5) :
    (s.attempt (.count id)).Reached id 6 := by
  refine h.further ?_
  rintro w hw rfl hrank
  cases hstage : w.stage with
  | published =>
      have hact : s.step (.count w.id)
          = some ({ s with completed := s.completed + 1 }.setWorker
              { w with inbox := .closed, stage := .counted }) := by
        simp [step, hw, count, hstage]
      rw [attempt_eq hact]
      exact reached_setWorker hw { w with inbox := .closed, stage := .counted } rfl
  | _ => simp [hstage, Stage.rank] at hrank

/-- A worker works through its job to an end. -/
theorem reached_workThrough {watched : Watched} (job : Job) :
    ∀ {s : Scheduler} {w : Worker}, s.worker? id = some w →
      w.stage = .working job watched →
      (workThrough id watched job s).Reached id 3 := by
  induction job with
  | ends ending =>
      intro s w hw hstage
      obtain rfl := id_of_worker? hw
      have hact : s.step (.work w.id)
          = some (s.setWorker { w with stage := .ended (ending.result w.id) }) := by
        simp [step, hw, work, hstage]
      rw [workThrough, attempt_eq hact]
      exact reached_setWorker hw { w with stage := .ended (ending.result w.id) } rfl
  | asks next ih =>
      intro s w hw hstage
      obtain rfl := id_of_worker? hw
      let w' := { w with stage := .working (next (s.deadlineOf watched).done) watched }
      have hact : s.step (.work w.id) = some (s.setWorker w') := by
        simp [w', step, hw, work, hstage]
      rw [workThrough, attempt_eq hact]
      exact ih _ (worker?_setWorker_self hw w' rfl) rfl
  | cancels next ih =>
      intro s w hw hstage
      obtain rfl := id_of_worker? hw
      let w' := { w with stage := .working next watched }
      have hact : s.step (.work w.id)
          = some ((s.setDeadline (s.deadlineOf watched).cancel watched).setWorker w') := by
        simp [w', step, hw, work, hstage]
      have hw' : (s.setDeadline (s.deadlineOf watched).cancel watched).worker? w.id = some w := by
        cases watched <;> exact hw
      rw [workThrough, attempt_eq hact]
      exact ih (worker?_setWorker_self hw' w' rfl) rfl

theorem reached_finishWorker (h : s.Reached id 2) :
    (s.finishWorker id).Reached id 6 := by
  refine reached_count (reached_publish (reached_mark ?_))
  obtain ⟨w, hw, hrank⟩ := h
  obtain rfl := id_of_worker? hw
  rw [hw, Option.map_some]
  cases hstage : w.stage with
  | working job watched => exact reached_workThrough job hw hstage
  | idle => simp [hstage, Stage.rank] at hrank
  | waiting => simp [hstage, Stage.rank] at hrank
  | _ => exact ⟨w, hw, by simp [hstage, Stage.rank]⟩

/-- A waiting worker picks up its job, as it has one, or abandons it. -/
theorem reached_dispatchWorker {value : WorkerId → JobResult} {log : List Note}
    (balanced : Accounts value log s) (h : s.Reached id 1) :
    (s.dispatchWorker id).Reached id 2 := by
  obtain ⟨w, hw, hrank⟩ := h
  obtain rfl := id_of_worker? hw
  rcases Nat.eq_or_lt_of_le hrank with heq | hlt
  · cases hstage : w.stage with
    | waiting =>
        have own := balanced.accords hw
        simp only [Worker.Accords, hstage] at own
        obtain ⟨dispatch, -, hinbox⟩ := own
        cases hcancelled : s.deadline.cancelled with
        | true =>
            have hpick : s.step (.pickUp w.id) = none := by
              simp [step, hw, pickUp, hstage, hinbox, hcancelled]
            have habandon : s.step (.abandon w.id)
                = some (s.setWorker { w with stage := .ended (.abandoned w.id) }) := by
              simp [step, hw, abandon, hstage, hcancelled]
            rw [dispatchWorker, attempt_eq_self hpick, attempt_eq habandon]
            have hset :=
              reached_setWorker hw { w with stage := .ended (.abandoned w.id) } rfl
            exact hset.le (by simp [Stage.rank])
        | false =>
            have hpick : s.step (.pickUp w.id) = some (s.setWorker { w with
                state := .running, inbox := .open none
                stage := .working (dispatch.job w.id) dispatch.watched }) := by
              simp [step, hw, pickUp, hstage, hinbox, hcancelled]
            rw [dispatchWorker, attempt_eq hpick]
            have hset := reached_setWorker hw { w with
              state := .running, inbox := .open none
              stage := .working (dispatch.job w.id) dispatch.watched } rfl
            exact hset.attempts (.single _ _)
    | _ => simp [hstage, Stage.rank] at heq
  · have hreached : s.Reached w.id 2 := ⟨w, hw, hlt⟩
    exact hreached.attempts (attempts_dispatchWorker s w.id)

end

/-! ## The whole wait -/

theorem Attempts.samePool {s s' : Scheduler} (h : Attempts s s')
    (started : s.started = true) :
    s'.workers.map Worker.id = s.workers.map Worker.id ∧ s'.started = true ∧
      s'.collected = s.collected := by
  refine h.keep (fun s' => s'.workers.map Worker.id = s.workers.map Worker.id ∧
    s'.started = true ∧ s'.collected = s.collected) ⟨rfl, started, rfl⟩ ?_
  rintro s₁ s₂ a hstep ⟨hids, hstarted, hcollected⟩
  obtain ⟨hids', hstarted', hcollected' | hresults⟩ :=
    (change_of_step hstep).samePool hstarted
  · exact ⟨hids'.trans hids, hstarted', hcollected'.trans hcollected⟩
  · cases hresults

/-- Letting workers act one after the other takes all of them further, if it
does so for each when the accounts are balanced. -/
theorem reached_foldl {f : Scheduler → WorkerId → Scheduler} {rank rank' : Nat}
    (hf : ∀ s id, Attempts s (f s id))
    (further : ∀ {value log s id}, Accounts value log s → s.Reached id rank →
      (f s id).Reached id rank') (ids : List WorkerId) :
    ∀ {value log s}, Accounts value log s → (∀ id ∈ ids, s.Reached id rank) →
      ∀ id ∈ ids, (ids.foldl f s).Reached id rank' := by
  induction ids with
  | nil =>
      intro value log s _ _ id hid
      cases hid
  | cons id ids ih =>
      intro value log s balanced h other hother
      obtain ⟨more, run⟩ := (hf s id).runs
      obtain ⟨value', balanced'⟩ := balanced.runs run
      rcases List.mem_cons.mp hother with rfl | hother
      · have hnow := further balanced (h other List.mem_cons_self)
        exact hnow.attempts (attempts_foldl _ hf ids)
      · refine ih balanced' ?_ other hother
        intro i hi
        exact (h i (List.mem_cons_of_mem id hi)).attempts (hf s id)

/-- Every task of a started pool comes to its end. -/
theorem settle_isOver {value : WorkerId → JobResult} {log : List Note}
    {s : Scheduler} (balanced : Accounts value log s)
    (started : s.started = true) : s.settle.isOver = true := by
  have hwaiting : ∀ id ∈ s.workers.map Worker.id, s.Reached id 1 := by
    intro id hid
    obtain ⟨w, hw, rfl⟩ := List.mem_map.mp hid
    refine ⟨w, worker?_of_mem balanced.ids hw, ?_⟩
    have own := balanced.each w hw
    cases hstage : w.stage with
    | idle =>
        simp only [Worker.Accords, hstage] at own
        cases own.1.symm.trans started
    | _ => simp [Stage.rank]
  have hdispatch := attempts_foldl s attempts_dispatchWorker (s.workers.map Worker.id)
  obtain ⟨log', run⟩ := hdispatch.runs
  obtain ⟨value', balanced'⟩ := balanced.runs run
  have hpicked := reached_foldl attempts_dispatchWorker reached_dispatchWorker
    (s.workers.map Worker.id) balanced hwaiting
  have hfinished := reached_foldl attempts_finishWorker (fun _ => reached_finishWorker)
    (s.workers.map Worker.id) balanced' hpicked
  obtain ⟨hids, -, -⟩ := (attempts_settle s).samePool started
  apply List.all_eq_true.mpr
  intro w hw
  have hid : w.id ∈ s.workers.map Worker.id := hids ▸ List.mem_map_of_mem hw
  obtain ⟨x, hx, hrank⟩ := hfinished w.id hid
  have hnodup : (s.settle.workers.map Worker.id).Nodup := hids ▸ balanced.ids
  cases (worker?_of_mem hnodup hw).symm.trans hx
  exact Stage.isOver_of_rank hrank

/-- Waiting for the results is a run at whose end every task is over, and it
takes what it finds there. -/
theorem results_runs {value : WorkerId → JobResult} {log : List Note}
    {s : Scheduler} (balanced : Accounts value log s)
    (started : s.started = true) (collected : s.collected = false) :
    ∃ more s', Runs s more s' ∧ s'.isOver = true ∧ s'.started = true ∧
      s'.collected = false ∧
      s.results = s'.collect := by
  obtain ⟨more, run⟩ := (attempts_settle s).runs
  obtain ⟨-, hstarted, hcollected⟩ := (attempts_settle s).samePool started
  refine ⟨more, s.settle, run, settle_isOver balanced started, hstarted,
    hcollected.trans collected, ?_⟩
  simp [results, started, collected]

end Scheduler
end CsvQuery
