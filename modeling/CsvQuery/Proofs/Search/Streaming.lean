/-
Streaming is exact and lazy.

Without a sort order a search looks for as many matching rows as its offset
and limit make together.  It fails at the first failure in front of the last
of these rows, and not at one behind it; else it delivers the rows of its
page.  What stands behind the row that fills the limit is never read: it may
be anything, and the search has stopped asking its deadline, which it does
before every read.
-/
import CsvQuery.Proofs.Search.Scan

namespace CsvQuery

/-- How often a job goes on after asking a deadline that is not done until the
job itself cancels it.  A search reads one item each time it goes on, and at
no other time. -/
def Job.goesOn : Job → Nat
  | .ends _ => 0
  | .asks next => (next false).goesOn + 1
  | .cancels _ => 0

namespace Search

section
variable {s : Search} {id : WorkerId}

theorem finish_goesOn
    (found : Except QueryError Found) : (finish id found).goesOn = 0 := by
  cases found <;> rfl

theorem unlessDone_goesOn (found : Except QueryError Found) (next : Job) :
    (unlessDone id found next).goesOn = next.goesOn + 1 := rfl

/-! ## Behind the row that fills the limit -/

/-- Enough rows match in front for the rest of the source to be anything. -/
theorem streamFrom_append (front back back' : RowStream) (skip room : Nat)
    (taken : List ResultRow) (hroom : room ≠ 0)
    (hfilled : skip + room ≤ (s.matching front).length) :
    s.streamFrom id skip (some room) taken (front ++ back)
      = s.streamFrom id skip (some room) taken (front ++ back') := by
  induction front generalizing skip room taken with
  | nil =>
      have hnone : (s.matching []).length = 0 := rfl
      omega
  | cons item front ih =>
      rw [List.cons_append, List.cons_append]
      cases hfailure : s.failure? item with
      | some e =>
          rw [streamFrom_fails _ _ _ _ hfailure, streamFrom_fails _ _ _ _ hfailure]
      | none =>
        cases hmatch : s.match? item with
        | none =>
            rw [s.matching_cons_none hmatch] at hfilled
            rw [streamFrom_passes _ _ _ _ hfailure hmatch,
              streamFrom_passes _ _ _ _ hfailure hmatch, ih skip room taken hroom hfilled]
        | some row =>
            obtain ⟨fields, hproject⟩ := s.selection.project_isOk row
            rw [s.matching_cons_some hmatch, List.length_cons] at hfilled
            match skip, room, hroom with
            | skip + 1, room, hroom =>
                rw [streamFrom_skips _ _ _ _ hmatch, streamFrom_skips _ _ _ _ hmatch,
                  ih skip room taken hroom (by omega)]
            | 0, 1, _ =>
                rw [streamFrom_fills _ _ hmatch hproject,
                  streamFrom_fills _ _ hmatch hproject]
            | 0, room + 2, hroom =>
                rw [streamFrom_takes _ _ _ hmatch hproject (by simp) (by simp),
                  streamFrom_takes _ _ _ hmatch hproject (by simp) (by simp)]
                exact congrArg _ (ih 0 (room + 1) (fields :: taken) (by simp) (by omega))

/-- All items up to the row that fills the limit are read, and no more. -/
theorem streamFrom_goesOn (front back : RowStream)
    {item : Except SourceError Row} {row : Row}
    (hitem : s.match? item = some row) (skip room : Nat)
    (taken : List ResultRow) (hfront : s.firstFailure? front = none)
    (hfills : skip + room = (s.matching front).length + 1) (hroom : room ≠ 0) :
    (s.streamFrom id skip (some room) taken (front ++ item :: back)).goesOn
      = front.length + 1 := by
  induction front generalizing skip room taken with
  | nil =>
      obtain ⟨fields, hproject⟩ := s.selection.project_isOk row
      have hone : (s.matching []).length + 1 = 1 := rfl
      obtain rfl : skip = 0 := by omega
      obtain rfl : room = 1 := by omega
      rw [List.nil_append, streamFrom_fills _ _ hitem hproject, unlessDone_goesOn,
        finish_goesOn]
      rfl
  | cons first front ih =>
      rw [List.cons_append, List.length_cons]
      cases hfailure : s.failure? first with
      | some e =>
          rw [s.firstFailure?_cons_some hfailure] at hfront
          cases hfront
      | none =>
        rw [s.firstFailure?_cons_none hfailure] at hfront
        cases hmatch : s.match? first with
        | none =>
            rw [s.matching_cons_none hmatch] at hfills
            rw [streamFrom_passes _ _ _ _ hfailure hmatch, unlessDone_goesOn,
              ih skip room taken hfront hfills hroom]
        | some row' =>
            obtain ⟨fields, hproject⟩ := s.selection.project_isOk row'
            rw [s.matching_cons_some hmatch, List.length_cons] at hfills
            match skip, room, hroom with
            | skip + 1, room, hroom =>
                rw [streamFrom_skips _ _ _ _ hmatch, unlessDone_goesOn,
                  ih skip room taken hfront (by omega) hroom]
            | 0, 1, _ => omega
            | 0, room + 2, _ =>
                rw [streamFrom_takes _ _ _ hmatch hproject (by simp) (by simp),
                  unlessDone_goesOn]
                exact congrArg (· + 1) (ih 0 (room + 1) (fields :: taken) hfront (by omega)
                  (by simp))

/-- The item is the row that fills the limit of a search. -/
structure FilledBy (s : Search) (front : RowStream)
    (item : Except SourceError Row) : Prop where
  undisturbed : s.firstFailure? front = none
  isMatch : (s.match? item).isSome
  isLast : s.bound = some ((s.matching front).length + 1)

theorem job_streaming (horder : s.constraints.order = none) {room : Nat}
    (hlimit : s.constraints.limit = some (room + 1)) (items : RowStream) :
    s.job items id
      = s.streamFrom id (s.constraints.offset.getD 0) (some (room + 1))
        [] items := by
  rw [job, horder]
  dsimp only
  rw [if_neg (by simp [hlimit]), hlimit]

section
variable {front back : RowStream} {item : Except SourceError Row}
  (h : s.FilledBy front item)
  (horder : s.constraints.order = none) (hlimit : s.constraints.limit ≠ some 0)
include h

/-- The limit of a search that is filled. -/
theorem FilledBy.exists_limit (hlimit : s.constraints.limit ≠ some 0) :
    ∃ room, s.constraints.limit = some (room + 1) ∧
      s.constraints.offset.getD 0 + (room + 1)
        = (s.matching front).length + 1 := by
  have hlast := h.isLast
  unfold bound at hlast
  match hroom : s.constraints.limit with
  | none => simp [hroom] at hlast
  | some 0 => exact absurd hroom hlimit
  | some (room + 1) =>
      rw [hroom] at hlast
      exact ⟨room, rfl, Option.some.inj hlast⟩

include horder hlimit

theorem FilledBy.job_goesOn :
    (s.job (front ++ item :: back) id).goesOn = front.length + 1 := by
  obtain ⟨room, hroom, hfills⟩ := h.exists_limit hlimit
  obtain ⟨row, hitem⟩ := Option.isSome_iff_exists.mp h.isMatch
  rw [job_streaming horder hroom]
  exact streamFrom_goesOn front back hitem _ _ _ h.undisturbed hfills (by simp)

theorem FilledBy.job_append (back' : RowStream) :
    s.job (front ++ item :: back') id = s.job (front ++ item :: back) id := by
  obtain ⟨room, hroom, hfills⟩ := h.exists_limit hlimit
  obtain ⟨row, hitem⟩ := Option.isSome_iff_exists.mp h.isMatch
  have hmatching : (s.matching (front ++ [item])).length = (s.matching front).length + 1 := by
    simp [matching, List.filterMap_append, hitem]
  rw [job_streaming horder hroom, job_streaming horder hroom]
  rw [List.append_cons front item back', List.append_cons front item back]
  exact streamFrom_append _ _ _ _ _ _ (by simp) (by omega)

end

/-! ## What is delivered -/

theorem delivered_eq_failed_iff {found : Except QueryError Found}
    {e : QueryError} :
    delivered id found = .failed id (.job id e) ↔ found = .error e := by
  cases found with
  | error e' => simp [delivered, JobResult.failed]
  | ok found => simp [delivered, JobResult.failed]

end

/-- A streaming search without a deadline to stop it. -/
theorem streaming_stops_at_limit (s : Search) (id : WorkerId)
    (items : RowStream) (horder : s.constraints.order = none) :
    (s.constraints.limit = some 0 →
      s.run id none items = .ofRows id [] ∧ (s.job items id).goesOn = 0) ∧
    (s.constraints.limit ≠ some 0 →
      (∀ e, s.run id none items = .failed id (.job id e) ↔
          s.FailsBefore s.bound items e) ∧
      ((∀ e, ¬ s.FailsBefore s.bound items e) →
        ∃ rows, s.run id none items = .ofRows id rows ∧
          rows.map .ok = (atMost s.constraints.limit
            ((s.matching items).drop (s.constraints.offset.getD 0))).map
              s.selection.project) ∧
      ∀ front item back, items = front ++ item :: back → s.FilledBy front item →
        (s.job items id).goesOn = front.length + 1 ∧
        ∀ back', s.job (front ++ item :: back') id = s.job items id) := by
  constructor
  · intro hlimit
    refine ⟨run_filled horder hlimit none items, ?_⟩
    rw [job, horder]
    dsimp only
    rw [if_pos hlimit, finish_goesOn]
  · intro hlimit
    obtain ⟨f, hproject⟩ := s.selection.exists_project
    have hrun : s.run id none items = delivered id ((s.readAll (s.upTo s.bound items)).map
        fun found => ⟨(found.drop (s.constraints.offset.getD 0)).map f, false⟩) := by
      rw [run_streaming hproject horder hlimit, decide_eq_false (not_cut_none _ _),
        atMost_none]
    refine ⟨?_, ?_, ?_⟩
    · intro e
      rw [hrun, delivered_eq_failed_iff, ← s.firstFailure?_upTo_iff,
        ← s.readAll_eq_error_iff]
      cases s.readAll (s.upTo s.bound items) <;> simp [Except.map]
    · intro hnone
      have hread : s.readAll (s.upTo s.bound items) = .ok (atMost s.bound (s.matching items)) := by
        rw [readAll_eq_ok_iff]
        refine ⟨?_, s.matching_upTo _ _⟩
        rw [Option.eq_none_iff_forall_ne_some]
        intro e he
        exact hnone e ((s.firstFailure?_upTo_iff _).mp he)
      refine ⟨_, by rw [hrun, hread]; rfl, ?_⟩
      dsimp only
      rw [bound, drop_atMost, List.map_map]
      exact List.map_congr_left fun row _ => (hproject row).symm
    · rintro front item back rfl hfilled
      exact ⟨hfilled.job_goesOn horder hlimit, hfilled.job_append horder hlimit⟩

/-- The second of the rows that are not `b`. -/
def secondOther : Search where
  selection := ⟨["v"], [(0, "v")]⟩
  index := ⟨[("v", 0)]⟩
  chain := ⟨[.predicate ⟨"v", .notEq, "b", none⟩]⟩
  constraints := { limit := some 1, offset := some 1 }

/-- A failure behind the row that fills the limit does not come to light. -/
theorem failure_behind_limit_is_hidden :
    secondOther.constraints.order = none ∧
    secondOther.constraints.limit ≠ some 0 ∧
      secondOther.FilledBy [.ok ["a"], .ok ["b"]] (.ok ["c"]) ∧
      (secondOther.job [.ok ["a"], .ok ["b"], .ok ["c"],
        .error (.noHeader "t")] 1).goesOn = 3 ∧
      ∃ rows, secondOther.run 1 none [.ok ["a"], .ok ["b"], .ok ["c"],
        .error (.noHeader "t")]
          = .ofRows 1 rows ∧
        rows.map .ok = [secondOther.selection.project ["c"]] := by
  have hlimit : secondOther.constraints.limit ≠ some 0 := by decide
  have hfilled : secondOther.FilledBy [.ok ["a"], .ok ["b"]] (.ok ["c"]) :=
    ⟨by decide +kernel, by decide +kernel, by decide +kernel⟩
  obtain ⟨-, hrows, hreads⟩ := (streaming_stops_at_limit secondOther 1
    [.ok ["a"], .ok ["b"], .ok ["c"], .error (.noHeader "t")] rfl).2 hlimit
  refine ⟨rfl, hlimit, hfilled, (hreads _ _ _ rfl hfilled).1, hrows fun e he => ?_⟩
  have hnone : secondOther.firstFailure? (secondOther.upTo secondOther.bound
      [.ok ["a"], .ok ["b"], .ok ["c"], .error (.noHeader "t")]) = none := by decide +kernel
  rw [← firstFailure?_upTo_iff, hnone] at he
  cases he

end Search
end CsvQuery
