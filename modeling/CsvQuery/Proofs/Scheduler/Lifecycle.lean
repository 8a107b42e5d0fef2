/-
What only moves forward.

A deadline is never less done than it was, and a worker shows its owner the
state that goes with the stage of its task (`Stage.states`).  Both are facts
about single changes, carried through runs: `Runs.becomes` for the deadlines,
`Runs.shown` for the workers.

A worker that abandons its job goes from scheduled to finished and is never
seen running; this is why the stage of a result at hand has two states.
-/
import CsvQuery.Proofs.Scheduler.Accounts

namespace CsvQuery

/-! ## Deadlines -/

/-- What may become of a deadline: neither its cancellation nor the end of its
time is ever taken back. -/
structure Deadline.Becomes (d d' : Deadline) : Prop where
  cancelled : d.cancelled = true → d'.cancelled = true
  expired : d.expired = true → d'.expired = true

namespace Deadline

theorem Becomes.refl (d : Deadline) : d.Becomes d := ⟨id, id⟩

theorem Becomes.trans {d d' d'' : Deadline} (first : d.Becomes d')
    (second : d'.Becomes d'') :
    d.Becomes d'' where
  cancelled h := second.cancelled (first.cancelled h)
  expired h := second.expired (first.expired h)

theorem Becomes.cancel (d : Deadline) : d.Becomes d.cancel := ⟨fun _ => rfl, id⟩

theorem Becomes.expire (d : Deadline) : d.Becomes d.expire := ⟨id, fun _ => rfl⟩

theorem done_of_cancelled {d : Deadline}
    (h : d.cancelled = true) : d.done = true := by
  rw [done, h, Bool.true_or]

theorem Becomes.done {d d' : Deadline} (h : d.Becomes d')
    (hdone : d.done = true) :
    d'.done = true := by
  unfold Deadline.done at hdone ⊢
  rcases Bool.or_eq_true_iff.mp hdone with hcancelled | hexpired
  · exact Bool.or_eq_true_iff.mpr (.inl (h.cancelled hcancelled))
  · exact Bool.or_eq_true_iff.mpr (.inr (h.expired hexpired))

end Deadline

namespace Scheduler

theorem deadlineOf_setWorker (s : Scheduler) (w : Worker) (x : Watched) :
    (s.setWorker w).deadlineOf x = s.deadlineOf x := by
  cases x <;> rfl

/-- A deadline that is set moves forward if it was set to what it may become. -/
theorem becomes_setDeadline {s : Scheduler} {d : Deadline} {watched : Watched}
    (h : (s.deadlineOf watched).Becomes d) (x : Watched) :
    (s.deadlineOf x).Becomes ((s.setDeadline d watched).deadlineOf x) := by
  cases watched with
  | run =>
      cases x with
      | run => exact h
      | beside => exact .refl _
  | beside =>
      cases x with
      | run => exact .refl _
      | beside => exact h

theorem Change.becomes {s s' : Scheduler} {e : Event} {notes : List Note}
    (change : Change s e notes s') (x : Watched) :
    (s.deadlineOf x).Becomes (s'.deadlineOf x) := by
  cases change with
  | collected => rw [collect_after]; cases x <;> exact .refl _
  | cancelled => exact becomes_setDeadline (.cancel _) x
  | expired => exact becomes_setDeadline (.expire _) x
  | rung =>
      have hring : (s.deadlineOf .run).Becomes s.deadline.cancel := .cancel _
      exact becomes_setDeadline hring x
  | cancelledByJob =>
      rw [deadlineOf_setWorker]
      exact becomes_setDeadline (.cancel _) x
  | published =>
      rw [deadlineOf_setWorker]
      split <;> cases x <;> exact .refl _
  | _ => cases x <;> exact .refl _

/-- In a run the deadlines only move forward. -/
theorem Runs.becomes {s s' : Scheduler} {log : List Note}
    (run : Runs s log s') (x : Watched) :
    (s.deadlineOf x).Becomes (s'.deadlineOf x) := by
  induction run with
  | refl => exact .refl _
  | snoc _ h ih => exact ih.trans ((change_of_happen h).becomes x)

end Scheduler

/-! ## States of workers -/

/-- The states that a worker may show at a stage. -/
def Stage.states : Stage → List WorkerState
  | .idle => [.scheduled]
  | .waiting => [.scheduled]
  | .working _ _ => [.running]
  | .ended _ => [.scheduled, .running]
  | .marked _ => [.finished]
  | .published => [.finished]
  | .counted => [.finished]

namespace Scheduler

/-- Every worker shows a state of its stage. -/
def Shown (s : Scheduler) : Prop :=
  ∀ w ∈ s.workers, w.state ∈ w.stage.states

section
variable {s s' : Scheduler}

/-- A worker behind a replacement is the new one, or one that was not
replaced. -/
theorem mem_setWorker {w x : Worker} (h : x ∈ (s.setWorker w).workers) :
    x = w ∨ x ∈ s.workers ∧ x.id ≠ w.id := by
  obtain ⟨old, hold, rfl⟩ := List.mem_map.mp h
  split
  next => exact .inl rfl
  next hne => exact .inr ⟨hold, hne⟩

theorem shown_new (timeout beside : Nat) :
    (Scheduler.new timeout beside).Shown := by
  intro w hw
  cases hw

theorem Shown.setWorker (h : s.Shown) {w : Worker}
    (own : w.state ∈ w.stage.states) :
    (s.setWorker w).Shown := by
  intro x hx
  rcases mem_setWorker hx with rfl | ⟨hx, -⟩
  · exact own
  · exact h x hx

theorem Shown.setDeadline (h : s.Shown) (d : Deadline) (watched : Watched) :
    (s.setDeadline d watched).Shown := by
  cases watched <;> exact h

/-- The state of a worker of the pool, at its stage. -/
theorem Shown.at (h : s.Shown) {w : Worker} (hw : s.worker? w.id = some w)
    {stage : Stage} (hstage : w.stage = stage) : w.state ∈ stage.states :=
  hstage ▸ h w (mem_of_worker? hw)

/-- A worker whose task is over is shown finished. -/
theorem Shown.finished (h : s.Shown) {w : Worker} (hw : w ∈ s.workers)
    (ended : w.stage.isOver = true) : w.state = .finished := by
  have hstate := h w hw
  rw [Stage.eq_counted ended] at hstate
  exact List.mem_singleton.mp hstate

theorem Shown.change {value : WorkerId → JobResult} {log notes : List Note}
    {e : Event} (balanced : Accounts value log s) (h : s.Shown)
    (change : Change s e notes s') : s'.Shown := by
  cases change with
  | refused => exact h
  | scheduled =>
      intro w hw
      rcases List.mem_cons.mp ((insertWorker_perm _ _).mem_iff.mp hw) with rfl | hw
      · exact .head _
      · exact h w hw
  | @sent w dispatch hw =>
      have hstate := h w (mem_of_worker? hw)
      exact h.setWorker hstate
  | started notStarted =>
      intro x hx
      obtain ⟨w, hw, rfl⟩ := List.mem_map.mp hx
      have hstate := h w hw
      rw [(balanced.idle notStarted hw).1] at hstate
      exact hstate
  | collected => rw [collect_after]; exact h
  | cancelled => exact h.setDeadline _ _
  | expired => exact h.setDeadline _ _
  | rung => exact h
  | pickedUp => exact h.setWorker (.head _)
  | abandoned hw hstage =>
      have hstate := h.at hw hstage
      refine h.setWorker ?_
      rw [List.mem_singleton.mp hstate]
      exact .head _
  | answered hw hstage =>
      have hstate := h.at hw hstage
      exact h.setWorker hstate
  | cancelledByJob hw hstage =>
      have hstate := h.at hw hstage
      refine Shown.setWorker (h.setDeadline _ _) ?_
      exact hstate
  | jobEnded hw hstage =>
      have hstate := h.at hw hstage
      refine h.setWorker ?_
      rw [List.mem_singleton.mp hstate]
      exact .tail _ (.head _)
  | marked => exact h.setWorker (.head _)
  | published hw hstage =>
      have hstate := h.at hw hstage
      refine Shown.setWorker ?_ hstate
      split <;> exact h
  | counted hw hstage =>
      have hstate := h.at hw hstage
      refine Shown.setWorker ?_ hstate
      exact h

/-- Whatever has happened to a new pool, every worker shows a state of its
stage. -/
theorem Runs.shown {timeout beside : Nat} {log : List Note}
    (run : Runs (.new timeout beside) log s) : s.Shown := by
  have hkept := run.keep (fun log s => (∃ value, Accounts value log s) ∧ s.Shown)
    ⟨⟨fun id => .abandoned id, accounts_new _ timeout beside⟩, shown_new timeout beside⟩ ?_
  · exact hkept.2
  · rintro log s s' e notes change ⟨⟨value, balanced⟩, h⟩
    exact ⟨balanced.change change, h.change balanced change⟩

end

/-- Only an unknown worker is shown unscheduled. -/
theorem Shown.state_eq_unscheduled_iff {s : Scheduler} (h : s.Shown)
    (id : WorkerId) :
    s.state id = .unscheduled ↔ id ∉ s.workers.map Worker.id := by
  unfold state
  cases hworker : s.worker? id with
  | none =>
      refine iff_of_true rfl ?_
      intro hid
      obtain ⟨w, hw, rfl⟩ := List.mem_map.mp hid
      exact worker?_eq_none hworker w hw rfl
  | some w =>
      have hw := mem_of_worker? hworker
      refine iff_of_false ?_ (not_not_intro (id_of_worker? hworker ▸ List.mem_map_of_mem hw))
      intro hstate
      have hstates := h w hw
      rw [show w.state = .unscheduled from hstate] at hstates
      cases hstage : w.stage <;> simp [hstage, Stage.states] at hstates

end Scheduler
end CsvQuery
