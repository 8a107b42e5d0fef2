/-
Workers do not disturb each other.

A job only learns of the rest of the pool through its deadline.  As long as no
deadline is done, every job is told the same whenever it asks, and so the end
it comes to is its own (`Job.endInTime`), whoever acts in between.  What a pool
delivers is then a function of its roster, the workers with their jobs: the
order of the calls that set the pool up and the order in which the workers act
leave the results as they are, up to their order, and another job for one
worker changes the entry of that worker only.

A run is undisturbed if neither deadline is done at its end; none was then done
before, as deadlines only move forward.
-/
import Mathlib.Data.List.Nodup
import CsvQuery.Proofs.Scheduler.Delivery
import CsvQuery.Proofs.Scheduler.Lifecycle

namespace CsvQuery

/-! ## Jobs in time -/

namespace Job

/-- How a job ends that is never told that its deadline is done. -/
def endInTime : Job → Ending
  | .ends ending => ending
  | .asks next => (next false).endInTime
  | .cancels next => next.endInTime

theorem endInTime_of_endingOn (job : Job) :
    ∀ {answers : List Bool} {ending : Ending},
    job.endingOn answers = some ending → (∀ answer ∈ answers, answer = false) →
      ending = job.endInTime := by
  induction job with
  | ends own =>
      intro answers ending h _
      cases answers with
      | nil => exact (Option.some.inj h).symm
      | cons => cases h
  | asks next ih =>
      intro answers ending h inTime
      cases answers with
      | nil => cases h
      | cons answer answers =>
          obtain ⟨rfl, hrest⟩ := List.forall_mem_cons.mp inTime
          exact ih false h hrest
  | cancels next ih => exact ih

end Job

namespace Scheduler

/-- Neither deadline is done. -/
def Undisturbed (s : Scheduler) : Prop :=
  ∀ watched, (s.deadlineOf watched).done = false

section
variable {s s' : Scheduler} {log notes : List Note}

theorem Undisturbed.notCancelled
    (h : s.Undisturbed) : s.deadline.cancelled = false := by
  rw [Bool.eq_false_iff]
  intro hcancelled
  cases (h .run).symm.trans (Deadline.done_of_cancelled hcancelled)

/-- A run that ends undisturbed was undisturbed all the time. -/
theorem Runs.undisturbed (run : Runs s log s')
    (h : s'.Undisturbed) : s.Undisturbed := by
  intro watched
  rw [Bool.eq_false_iff]
  intro hdone
  cases (h watched).symm.trans ((run.becomes watched).done hdone)

theorem Change.answers_false {e : Event} (change : Change s e notes s')
    (h : s.Undisturbed) {id : WorkerId} {answer : Bool}
    (hnote : ⟨id, .answered answer⟩ ∈ notes) :
    answer = false := by
  cases change with
  | @answered w next watched =>
      cases List.mem_singleton.mp hnote
      exact h watched
  | sent => cases List.mem_singleton.mp hnote
  | pickedUp => cases List.mem_singleton.mp hnote
  | _ => cases hnote

/-- In an undisturbed run no job is ever told that its deadline is done. -/
theorem Runs.answers_false (run : Runs s log s') (h : s'.Undisturbed)
    {id : WorkerId} {answer : Bool}
    (hdeed : .answered answer ∈ story log id) : answer = false := by
  rw [mem_story] at hdeed
  induction run with
  | refl => cases hdeed
  | snoc run happens ih =>
      have hbefore := (Runs.snoc (.refl _) happens).undisturbed h
      rcases List.mem_append.mp hdeed with hdeed | hdeed
      · exact ih hbefore hdeed
      · exact (change_of_happen happens).answers_false hbefore hdeed

end

/-! ## Setting up a pool -/

/-- The calls that put the workers of a roster into a pool, with their jobs. -/
def callsFor (roster : List (WorkerId × Dispatch)) : List Event :=
  roster.map (fun entry => .schedule entry.1) ++ roster.map fun entry => .send entry.1 entry.2

/-- A pool before the start, with what the calls so far have put into it. -/
structure SetUp (calls : List Event) (log : List Note)
    (s : Scheduler) : Prop where
  started : s.started = false
  ids : ∀ id, id ∈ s.workers.map Worker.id ↔ .schedule id ∈ calls
  sent : ∀ id dispatch, .sent dispatch ∈ story log id →
    .send id dispatch ∈ calls

theorem setUp_new (timeout beside : Nat) :
    SetUp [] [] (.new timeout beside) where
  started := rfl
  ids _ := by simp [Scheduler.new]
  sent _ _ h := by cases h

section
variable {s s' : Scheduler} {calls : List Event} {log : List Note}

theorem SetUp.schedule (h : SetUp calls log s) (new : WorkerId) :
    SetUp (calls ++ [.schedule new]) (log ++ [])
      ((s.schedule new).toOption.getD s) where
  started := by
    have hchange := change_of_schedule s new
    generalize (s.schedule new).toOption.getD s = next at hchange ⊢
    cases hchange with
    | refused => exact h.started
    | scheduled => exact h.started
  ids id := by
    rw [mem_ids_schedule h.started, h.ids, List.mem_append, List.mem_singleton,
      Event.schedule.injEq]
  sent id dispatch hsent := by
    rw [List.append_nil] at hsent
    exact List.mem_append_left _ (h.sent id dispatch hsent)

theorem SetUp.send (h : SetUp calls log s) (target : WorkerId)
    (dispatch : Dispatch) :
    SetUp (calls ++ [.send target dispatch])
      (log ++ s.notes (.send target dispatch))
      ((s.send target dispatch).toOption.getD s) := by
  have hids : ∀ id, .schedule id ∈ calls ++ [.send target dispatch] ↔ .schedule id ∈ calls := by
    intro id
    simp
  generalize hnotes : s.notes (.send target dispatch) = notes
  generalize hnext : (s.send target dispatch).toOption.getD s = next
  have hchange : Change s (.send target dispatch) notes next :=
    hnotes ▸ hnext ▸ change_of_send s target dispatch
  cases hchange with
  | refused =>
      refine ⟨h.started, fun id => (h.ids id).trans (hids id).symm, ?_⟩
      intro id sent hsent
      rw [List.append_nil] at hsent
      exact List.mem_append_left _ (h.sent id sent hsent)
  | sent hw =>
      refine ⟨h.started, fun id => ?_, ?_⟩
      · rw [setWorker_ids]
        exact (h.ids id).trans (hids id).symm
      · intro id sent hsent
        rw [mem_story] at hsent
        rcases List.mem_append.mp hsent with hsent | hsent
        · exact List.mem_append_left _ (h.sent id sent (mem_story.mpr hsent))
        · cases List.mem_singleton.mp hsent
          exact List.mem_append_right _ (.head _)

theorem SetUp.play {roster : List (WorkerId × Dispatch)} (more : List Event)
    (sub : ∀ e ∈ more, e ∈ callsFor roster) :
    ∀ {calls log s}, SetUp calls log s →
      ∀ {log' s'}, s.play more = some (log', s') →
      SetUp (calls ++ more) (log ++ log') s' := by
  induction more with
  | nil =>
      intro calls log s h log' s' hplay
      cases hplay
      rw [List.append_nil, List.append_nil]
      exact h
  | cons e more ih =>
      intro calls log s h log' s' hplay
      obtain ⟨hfirst, hsub⟩ := List.forall_mem_cons.mp sub
      obtain ⟨next, hnext, hrest⟩ := Option.bind_eq_some_iff.mp hplay
      obtain ⟨⟨rest, last⟩, hplay, heq⟩ := Option.map_eq_some_iff.mp hrest
      cases heq
      rw [List.append_cons, ← List.append_assoc]
      refine ih hsub ?_ hplay
      rcases List.mem_append.mp hfirst with hfirst | hfirst
      · obtain ⟨entry, -, rfl⟩ := List.mem_map.mp hfirst
        cases hnext
        exact h.schedule entry.1
      · obtain ⟨entry, -, rfl⟩ := List.mem_map.mp hfirst
        cases hnext
        exact h.send entry.1 entry.2

end

/-! ## Results of a roster -/

/-- A pool that some run of a roster leads to: the calls are made in some order
that allows the start, and then anything may happen. -/
inductive RunOf (roster : List (WorkerId × Dispatch)) : Scheduler → Prop
  | intro {timeout beside : Nat} {calls : List Event} {setup log : List Note}
      {s₀ s₁ s : Scheduler} : calls.Perm (callsFor roster) →
      play (.new timeout beside) calls = some (setup, s₀) → s₀.start = .ok s₁ →
      Runs s₁ log s → RunOf roster s

/-- What a worker delivers for its job if nothing disturbs it. -/
def ownResult (entry : WorkerId × Dispatch) : JobResult :=
  (entry.2.job entry.1).endInTime.result entry.1

theorem Delivers.eq_ownResult {id : WorkerId} {dispatch : Dispatch}
    {done : List Deed} {result : JobResult}
    (h : Delivers false id dispatch done result)
    (inTime : ∀ answer, .answered answer ∈ done → answer = false) :
    result = ownResult (id, dispatch) := by
  rcases h.abandoned_or_invoked with ⟨hcancelled, -, -⟩ | ⟨answers, ending, rfl, hending, rfl⟩
  · cases hcancelled
  · have hfalse : ∀ answer ∈ answers, answer = false := by
      intro answer hanswer
      exact inTime answer (.tail _ (List.mem_map_of_mem hanswer))
    rw [Job.endInTime_of_endingOn _ hending hfalse]
    rfl

section
variable {roster : List (WorkerId × Dispatch)} {s s₀ s₁ : Scheduler}
  {calls : List Event}
  {setup log : List Note} {value value₀ : WorkerId → JobResult}

/-- The workers of a pool that the calls for a roster have set up. -/
theorem SetUp.ids_perm (distinct : (roster.map Prod.fst).Nodup)
    (h : SetUp calls setup s₀) (perm : calls.Perm (callsFor roster))
    (balanced : Accounts value₀ setup s₀) :
    (s₀.workers.map Worker.id).Perm (roster.map Prod.fst) := by
  rw [List.perm_ext_iff_of_nodup balanced.ids distinct]
  intro id
  rw [h.ids, perm.mem_iff]
  simp [callsFor]

/-- The job that was sent to a worker is that of the roster. -/
theorem SetUp.sent_of_mem (distinct : (roster.map Prod.fst).Nodup)
    (h : SetUp calls setup s₀) (perm : calls.Perm (callsFor roster))
    (balanced : Accounts value₀ setup s₀)
    (jobs : ∀ w ∈ s₀.workers, w.hasJob = true) {entry : WorkerId × Dispatch}
    (hentry : entry ∈ roster) : story setup entry.1 = [.sent entry.2] := by
  have hid : entry.1 ∈ s₀.workers.map Worker.id :=
    (h.ids_perm distinct perm balanced).mem_iff.mpr (List.mem_map_of_mem hentry)
  obtain ⟨w, hw, heq⟩ := List.mem_map.mp hid
  obtain ⟨dispatch, -, hstory⟩ := balanced.waits h.started hw (jobs w hw)
  rw [heq] at hstory
  have hsend : (entry.1, dispatch) ∈ roster := by
    have hmem :=
      perm.mem_iff.mp (h.sent entry.1 dispatch (by rw [hstory]; exact .head _))
    simpa [callsFor] using hmem
  have hsame := List.inj_on_of_nodup_map distinct hsend hentry rfl
  rw [hstory, ← hsame]

/-- A start that succeeds is an event of the pool. -/
theorem runs_of_start (h : s₀.start = .ok s₁) : Runs s₀ [] s₁ := by
  have hhappen : s₀.happen .start = some s₁ := by
    rw [happen, h]
    rfl
  exact .snoc (.refl s₀) hhappen

/-- An undisturbed run of a roster delivers for every worker what its own job
comes to. -/
theorem RunOf.results_perm (distinct : (roster.map Prod.fst).Nodup)
    (run : RunOf roster s) (collected : s.collected = false)
    (quiet : s.results.2.Undisturbed) :
    ∃ entries, s.results.1 = .ok entries ∧
      entries.Perm (roster.map ownResult) := by
  obtain @⟨timeout, beside, calls, setup, log, s₀, s₁, _, perm, played, hstart, run⟩ :=
    run
  obtain ⟨value₀, balanced₀⟩ := exists_accounts (runs_of_play calls played)
  have setUp : SetUp calls setup s₀ :=
    (setUp_new timeout beside).play calls (fun e he => perm.mem_iff.mp he) played
  have first := runs_of_start hstart
  obtain ⟨-, -, jobs, rfl⟩ := of_start_eq_ok hstart
  obtain ⟨hids, started⟩ := run.samePool rfl
  rw [List.map_map] at hids
  obtain ⟨value, balanced⟩ := balanced₀.runs (first.trans run)
  -- Waiting for the results is the rest of the run.
  obtain ⟨more, s', rest, hover, -, hcollected, hresults⟩ :=
    results_runs balanced started collected
  have quiet' : s'.Undisturbed := by
    rw [hresults, collect_after] at quiet
    intro watched
    cases watched
    · exact quiet .run
    · exact quiet .beside
  obtain ⟨value', balanced'⟩ := balanced₀.runs (first.trans (run.trans rest))
  obtain ⟨hok, hqueue⟩ := collect_of_isOver balanced' hover hcollected
  refine ⟨s'.queue, by rw [hresults]; exact hok, hqueue.trans ?_⟩
  have hworkers : (s'.workers.map Worker.id).Perm (roster.map Prod.fst) := by
    rw [(rest.samePool started).1, hids]
    exact setUp.ids_perm distinct perm balanced₀
  have hvalue : ∀ entry ∈ roster, value' entry.1 = ownResult entry := by
    intro entry hentry
    obtain ⟨w, hw, heq⟩ :=
      List.mem_map.mp (hworkers.mem_iff.mpr (List.mem_map_of_mem hentry))
    have hsent := setUp.sent_of_mem distinct perm balanced₀ jobs hentry
    rw [← heq] at hsent ⊢
    have hdelivers := delivers_of_isOver balanced' hover hw hsent
    rw [quiet'.notCancelled, heq] at hdelivers
    rw [heq]
    refine hdelivers.eq_ownResult ?_
    intro answer hanswer
    exact (run.trans rest).answers_false quiet' hanswer
  have hmap := hworkers.map value'
  rw [List.map_map, List.map_map] at hmap
  exact hmap.trans (.of_eq (List.map_congr_left hvalue))

end

/-- As long as no deadline is done, the results of a roster are the same for
every order of the calls and of the workers' steps, up to their own order, and
another job for one worker changes the entry of that worker only. -/
theorem results_independent_of_schedule {roster : List (WorkerId × Dispatch)}
    (distinct : (roster.map Prod.fst).Nodup) {s : Scheduler}
    (run : RunOf roster s) (collected : s.collected = false)
    (quiet : s.results.2.Undisturbed) :
    ∃ entries, s.results.1 = .ok entries ∧
      (∀ s', RunOf roster s' → s'.collected = false → s'.results.2.Undisturbed →
        ∃ entries', s'.results.1 = .ok entries' ∧ entries'.Perm entries) ∧
      ∀ front id dispatch back, roster = front ++ (id, dispatch) :: back →
        ∀ other s', RunOf (front ++ (id, other) :: back) s' →
          s'.collected = false →
          s'.results.2.Undisturbed →
          ∃ entries' others, s'.results.1 = .ok entries' ∧
            entries.Perm (ownResult (id, dispatch) :: others) ∧
            entries'.Perm (ownResult (id, other) :: others) := by
  obtain ⟨entries, hresults, hentries⟩ := run.results_perm distinct collected quiet
  refine ⟨entries, hresults, ?_, ?_⟩
  · intro s' run' collected' quiet'
    obtain ⟨entries', hresults', hentries'⟩ :=
      run'.results_perm distinct collected' quiet'
    exact ⟨entries', hresults', hentries'.trans hentries.symm⟩
  · rintro front id dispatch back rfl other s' run' collected' quiet'
    have hids : ((front ++ (id, other) :: back).map Prod.fst).Nodup := by
      rw [List.map_append, List.map_cons] at distinct ⊢
      exact distinct
    obtain ⟨entries', hresults', hentries'⟩ := run'.results_perm hids collected' quiet'
    rw [List.map_append, List.map_cons] at hentries hentries'
    exact ⟨entries', _, hresults', hentries.trans List.perm_middle,
      hentries'.trans List.perm_middle⟩

/-- A job that panics at once, beside the run's deadline. -/
def failingJob : Dispatch :=
  { job := fun _ => .ends .panicked, watched := .beside }

/-- The second worker acts first. -/
def secondFirst : List Event :=
  [.act (.pickUp 2), .act (.work 2), .act (.mark 2), .act (.pickUp 1), .act (.publish 2),
    .act (.work 1)]

theorem panic_changes_no_other_entry :
    ∃ s s' s'', RunOf [(1, askingJob), (2, failingJob)] s ∧
      RunOf [(1, askingJob), (2, failingJob)] s' ∧
      RunOf [(1, askingJob), (2, askingJob)] s'' ∧
      s.results.1 = .ok [.failed 2 (.jobPanicked 2), .ofRows 1 []] ∧
      s'.results.1 = .ok [.ofRows 1 [], .failed 2 (.jobPanicked 2)] ∧
      ∃ entries entries' entries'' others, s.results.1 = .ok entries ∧
        s'.results.1 = .ok entries' ∧ entries'.Perm entries ∧
        s''.results.1 = .ok entries'' ∧
        entries.Perm (.failed 2 (.jobPanicked 2) :: others) ∧
        entries''.Perm (.ofRows 2 [] :: others) := by
  have hswapped : List.Perm
      [.schedule 2, .schedule 1, .send 2 failingJob, .send 1 askingJob]
      (callsFor [(1, askingJob), (2, failingJob)]) :=
    (List.Perm.swap _ _ []).append (.swap _ _ [])
  have quiet : ∀ {s : Scheduler}, s.deadline.done = false → s.beside.done = false →
      s.Undisturbed := by
    intro s hrun hbeside watched
    cases watched
    · exact hrun
    · exact hbeside
  have played : play (.new 1 1) (callsFor [(1, askingJob), (2, failingJob)]) = some (_, _) := rfl
  have played' : play (.new 1 1)
      [.schedule 2, .schedule 1, .send 2 failingJob, .send 1 askingJob] = some (_, _) := rfl
  have played'' : play (.new 1 1) (callsFor [(1, askingJob), (2, askingJob)]) = some (_, _) := rfl
  have run : RunOf [(1, askingJob), (2, failingJob)] _ :=
    .intro (.refl _) played rfl (runs_of_play secondFirst rfl)
  have run' : RunOf [(1, askingJob), (2, failingJob)] _ :=
    .intro hswapped played' rfl (.refl _)
  have run'' : RunOf [(1, askingJob), (2, askingJob)] _ :=
    .intro (.refl _) played'' rfl (.refl _)
  obtain ⟨entries, hentries, hsame, hother⟩ :=
    results_independent_of_schedule (by decide) run rfl (quiet rfl rfl)
  obtain ⟨entries', hentries', hperm⟩ := hsame _ run' rfl (quiet rfl rfl)
  obtain ⟨entries'', others, hentries'', hold, hnew⟩ :=
    hother [(1, askingJob)] 2 failingJob [] rfl askingJob _ run'' rfl (quiet rfl rfl)
  exact ⟨_, _, _, run, run', run'', rfl, rfl, entries, entries', entries'', others, hentries,
    hentries', hperm, hentries'', hold, hnew⟩

end Scheduler
end CsvQuery
