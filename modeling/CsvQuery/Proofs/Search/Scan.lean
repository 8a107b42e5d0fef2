/-
The two loops of a search.

What one item does to a loop is an equation of its own: the search fails at it,
passes it, skips it, takes it, or has its limit filled by it.  From these a
run follows by induction over the source: a streaming search delivers what it
reads up to the row that fills its limit, a sorting search what it reads of the
whole source, and a deadline cuts both short in the same way.
-/
import CsvQuery.Proofs.Search.Items

namespace CsvQuery
namespace Search

/-- What a worker delivers for what its search found. -/
def delivered (id : WorkerId) : Except QueryError Found → JobResult
  | .ok found =>
    { id, rows := found.rows, errors := [], deadlineExceeded := found.deadlineExceeded }
  | .error e => .failed id (.job id e)

theorem finish_endWithin (id : WorkerId) (budget : Option Nat)
    (found : Except QueryError Found) :
    (finish id found).endWithin budget = .returned (delivered id found) := by
  cases found <;> rw [finish, Job.endWithin.eq_def] <;> rfl

/-- The deadline comes before the end of the items, and before as many rows
have matched as are wanted. -/
def Cut (s : Search) (budget bound : Option Nat) (items : RowStream) : Prop :=
  (∃ n ∈ budget, n ≤ items.length) ∧ ∀ n ∈ bound, (s.matching (atMost budget items)).length < n

instance (s : Search) (budget bound : Option Nat) (items : RowStream) :
    Decidable (s.Cut budget bound items) :=
  inferInstanceAs (Decidable (_ ∧ _))

section
variable {s : Search} {id : WorkerId} {f : Row → ResultRow}

theorem cut_zero {bound : Option Nat} (h : bound ≠ some 0) (items : RowStream) :
    s.Cut (some 0) bound items := by
  constructor
  · exact ⟨0, rfl, Nat.zero_le _⟩
  · intro n hn
    rw [atMost_zero]
    exact Nat.pos_of_ne_zero fun hzero => h (hzero ▸ hn)

theorem not_cut_nil {budget : Option Nat} (h : budget ≠ some 0)
    (bound : Option Nat) :
    ¬ s.Cut budget bound [] := by
  rintro ⟨⟨n, hn, hle⟩, -⟩
  exact h (Nat.le_zero.mp hle ▸ hn)

theorem not_cut_filled (budget : Option Nat) (items : RowStream) :
    ¬ s.Cut budget (some 0) items :=
  fun h => Nat.not_lt_zero _ (h.2 0 rfl)

theorem cut_cons_iff {budget bound : Option Nat} (hbudget : budget ≠ some 0)
    (hbound : bound ≠ some 0) (item : Except SourceError Row)
    (items : RowStream) :
    s.Cut budget bound (item :: items)
      ↔ s.Cut (budget.map (· - 1)) (s.boundAfter item bound) items := by
  unfold Cut
  rw [atMost_cons hbudget, s.length_matching_cons_lt_iff hbound]
  apply and_congr_left'
  cases budget with
  | none => simp
  | some n =>
      have hn : n ≠ 0 := fun hzero => hbudget (congrArg some hzero)
      simp

/-! ## Streaming -/

/-- Ask the deadline, stop with what was found if it is done, and go on with
`next` if not. -/
def unlessDone (id : WorkerId) (found : Except QueryError Found)
    (next : Job) : Job :=
  .asks fun done => if done then finish id found else next

theorem unlessDone_endWithin_zero (found : Except QueryError Found)
    (next : Job) :
    (unlessDone id found next).endWithin (some 0)
      = .returned (delivered id found) :=
  finish_endWithin id (some 0) found

theorem unlessDone_endWithin {budget : Option Nat} (h : budget ≠ some 0)
    (found : Except QueryError Found) (next : Job) :
    (unlessDone id found next).endWithin budget
      = next.endWithin (budget.map (· - 1)) :=
  Job.endWithin_asks_of_ne h _

section
variable {item : Except SourceError Row} (skip : Nat) (room : Option Nat)
  (taken : List ResultRow) (items : RowStream)

theorem streamFrom_fails {e : QueryError} (h : s.failure? item = some e) :
    s.streamFrom id skip room taken (item :: items)
      = unlessDone id (.ok ⟨taken.reverse, true⟩) (finish id (.error e)) := by
  rw [streamFrom.eq_def]
  cases item with
  | error e' =>
      cases h
      rfl
  | ok row =>
      rw [failure?_ok_eq_some_iff] at h
      simp only [h]
      rfl

theorem streamFrom_passes (hfailure : s.failure? item = none)
    (hmatch : s.match? item = none) :
    s.streamFrom id skip room taken (item :: items)
      = unlessDone id (.ok ⟨taken.reverse, true⟩)
        (s.streamFrom id skip room taken items) := by
  obtain ⟨row, rfl, haccepts⟩ := s.exists_of_passes hfailure hmatch
  rw [streamFrom.eq_def]
  simp only [haccepts]
  rfl

section
variable {row : Row} {fields : ResultRow} (hmatch : s.match? item = some row)
include hmatch

theorem streamFrom_skips : s.streamFrom id (skip + 1) room taken (item :: items)
    = unlessDone id (.ok ⟨taken.reverse, true⟩)
      (s.streamFrom id skip room taken items) := by
  obtain ⟨rfl, haccepts⟩ := s.match?_eq_some_iff.mp hmatch
  rw [streamFrom.eq_def]
  simp only [haccepts]
  rfl

theorem streamFrom_takes (hproject : s.selection.project row = .ok fields)
    (hroom : room ≠ some 0) (hone : room ≠ some 1) :
    s.streamFrom id 0 room taken (item :: items)
      = unlessDone id (.ok ⟨taken.reverse, true⟩)
          (s.streamFrom id 0 (room.map (· - 1)) (fields :: taken) items) := by
  obtain ⟨rfl, haccepts⟩ := s.match?_eq_some_iff.mp hmatch
  rw [streamFrom.eq_def]
  simp only [haccepts, hproject]
  match room, hroom, hone with
  | none, _, _ => rfl
  | some (n + 2), _, _ => rfl

theorem streamFrom_fills (hproject : s.selection.project row = .ok fields) :
    s.streamFrom id 0 (some 1) taken (item :: items)
      = unlessDone id (.ok ⟨taken.reverse, true⟩)
          (finish id (.ok ⟨(fields :: taken).reverse, false⟩)) := by
  obtain ⟨rfl, haccepts⟩ := s.match?_eq_some_iff.mp hmatch
  rw [streamFrom.eq_def]
  simp only [haccepts, hproject]
  rfl

end
end

theorem streamFrom_endWithin_zero (skip : Nat) (room : Option Nat)
    (taken : List ResultRow) (items : RowStream) :
    (s.streamFrom id skip room taken items).endWithin (some 0)
      = .returned (delivered id (.ok ⟨taken.reverse, true⟩)) := by
  cases items with
  | nil => exact finish_endWithin id (some 0) (.ok ⟨taken.reverse, true⟩)
  | cons item items =>
      rw [streamFrom.eq_def]
      exact unlessDone_endWithin_zero (.ok ⟨taken.reverse, true⟩) _

theorem map_add_ne_zero {room : Option Nat} (h : room ≠ some 0) (skip : Nat) :
    room.map (skip + ·) ≠ some 0 := by
  cases room with
  | none => simp
  | some m => simpa using fun _ hm => h (congrArg some hm)

/-- A streaming scan reads up to the row that fills its limit, or as far as
the deadline lets it. -/
theorem streamFrom_endWithin
    (hproject : ∀ row, s.selection.project row = .ok (f row))
    (items : RowStream) (budget : Option Nat) (skip : Nat) (room : Option Nat)
    (taken : List ResultRow) (hroom : room ≠ some 0) :
    (s.streamFrom id skip room taken items).endWithin budget
      = .returned (delivered id
          ((s.readAll
            (s.upTo (room.map (skip + ·)) (atMost budget items))).map fun found =>
            ⟨taken.reverse ++ (found.drop skip).map f,
              s.Cut budget (room.map (skip + ·)) items⟩)) := by
  induction items generalizing budget skip room taken with
  | nil =>
      have hbound := map_add_ne_zero hroom skip
      rw [atMost_nil, upTo, readAll_nil]
      by_cases hbudget : budget = some 0
      · subst hbudget
        rw [streamFrom_endWithin_zero, decide_eq_true (cut_zero hbound [])]
        simp [Except.map]
      · rw [streamFrom, Job.endWithin_asks_of_ne hbudget, finish_endWithin,
          decide_eq_false (not_cut_nil hbudget _)]
        simp [Except.map]
  | cons item items ih =>
      have hbound := map_add_ne_zero hroom skip
      by_cases hbudget : budget = some 0
      · subst hbudget
        rw [streamFrom_endWithin_zero, decide_eq_true (cut_zero hbound _), atMost_zero, upTo,
          readAll_nil]
        simp [Except.map]
      rw [atMost_cons hbudget, s.upTo_cons hbound]
      simp only [cut_cons_iff hbudget hbound]
      cases hfailure : s.failure? item with
      | some e =>
          rw [streamFrom_fails _ _ _ _ hfailure, unlessDone_endWithin hbudget, finish_endWithin,
            s.readAll_cons_of_failure hfailure]
          rfl
      | none =>
        cases hmatch : s.match? item with
        | none =>
            rw [streamFrom_passes _ _ _ _ hfailure hmatch, unlessDone_endWithin hbudget,
              s.readAll_cons_none hfailure hmatch, s.boundAfter_of_none hmatch]
            exact ih _ skip room taken hroom
        | some row =>
            rw [s.readAll_cons_some hmatch, s.boundAfter_of_some hmatch]
            cases skip with
            | succ skip =>
                have hless : (room.map (skip + 1 + ·)).map (· - 1) = room.map (skip + ·) := by
                  cases room with
                  | none => rfl
                  | some m => simp
                rw [streamFrom_skips _ _ _ _ hmatch, unlessDone_endWithin hbudget,
                  ih _ skip room taken hroom, hless]
                generalize s.readAll _ = found
                cases found <;> rfl
            | zero =>
                by_cases hone : room = some 1
                · subst hone
                  have hfilled : ((some 1).map (0 + ·)).map (· - 1) = some 0 := rfl
                  rw [streamFrom_fills _ _ hmatch (hproject row), unlessDone_endWithin hbudget,
                    finish_endWithin, hfilled, upTo_zero, readAll_nil,
                    decide_eq_false (not_cut_filled _ _)]
                  simp [Except.map]
                · have hroom' : room.map (· - 1) ≠ some 0 := by
                    cases room with
                    | none => simp
                    | some m => grind
                  have hless : (room.map (0 + ·)).map (· - 1) = (room.map (· - 1)).map (0 + ·) := by
                    cases room <;> simp
                  rw [streamFrom_takes _ _ _ hmatch (hproject row) hroom hone,
                    unlessDone_endWithin hbudget, ih _ 0 _ _ hroom', hless]
                  generalize s.readAll _ = found
                  cases found with
                  | error e => rfl
                  | ok found => simp [Except.map]

/-! ## Sorting -/

section
variable {item : Except SourceError Row} (order : SortOrder)
  (matching : List Row)
  (items : RowStream)

/-- What a sorting search has found when its deadline stops it. -/
def sortedCut (s : Search) (order : SortOrder)
    (matching : List Row) : Except QueryError Found :=
  (s.sorted order matching.reverse).map fun rows => ⟨rows, true⟩

theorem sortFrom_fails {e : QueryError} (h : s.failure? item = some e) :
    s.sortFrom id order matching (item :: items)
      = unlessDone id (s.sortedCut order matching) (finish id (.error e)) := by
  rw [sortFrom.eq_def]
  cases item with
  | error e' =>
      cases h
      rfl
  | ok row =>
      rw [failure?_ok_eq_some_iff] at h
      simp only [h]
      rfl

theorem sortFrom_passes (hfailure : s.failure? item = none)
    (hmatch : s.match? item = none) :
    s.sortFrom id order matching (item :: items)
      = unlessDone id (s.sortedCut order matching)
        (s.sortFrom id order matching items) := by
  obtain ⟨row, rfl, haccepts⟩ := s.exists_of_passes hfailure hmatch
  rw [sortFrom.eq_def]
  simp only [haccepts]
  rfl

theorem sortFrom_keeps {row : Row} (hmatch : s.match? item = some row) :
    s.sortFrom id order matching (item :: items)
      = unlessDone id (s.sortedCut order matching)
          (s.sortFrom id order (row :: matching) items) := by
  obtain ⟨rfl, haccepts⟩ := s.match?_eq_some_iff.mp hmatch
  rw [sortFrom.eq_def]
  simp only [haccepts]
  rfl

end

theorem sortFrom_endWithin_zero (order : SortOrder) (matching : List Row)
    (items : RowStream) :
    (s.sortFrom id order matching items).endWithin (some 0)
      = .returned (delivered id (s.sortedCut order matching)) := by
  cases items with
  | nil => exact finish_endWithin id (some 0) (s.sortedCut order matching)
  | cons item items =>
      rw [sortFrom.eq_def]
      exact unlessDone_endWithin_zero (s.sortedCut order matching) _

/-- A sorting search reads all items, or as many as the deadline lets it. -/
theorem sortFrom_endWithin (order : SortOrder) (items : RowStream)
    (budget : Option Nat) (matching : List Row) :
    (s.sortFrom id order matching items).endWithin budget
      = .returned (delivered id
        ((s.readAll (atMost budget items)).bind fun found =>
          (s.sorted order (matching.reverse ++ found)).map fun rows =>
            ⟨rows, s.Cut budget none items⟩)) := by
  have hnone : (none : Option Nat) ≠ some 0 := by simp
  induction items generalizing budget matching with
  | nil =>
      rw [atMost_nil, readAll_nil]
      by_cases hbudget : budget = some 0
      · subst hbudget
        rw [sortFrom_endWithin_zero, decide_eq_true (cut_zero hnone [])]
        simp [Except.bind, sortedCut]
      · rw [sortFrom, Job.endWithin_asks_of_ne hbudget, finish_endWithin,
          decide_eq_false (not_cut_nil hbudget _)]
        simp [Except.bind]
  | cons item items ih =>
      by_cases hbudget : budget = some 0
      · subst hbudget
        rw [sortFrom_endWithin_zero, decide_eq_true (cut_zero hnone _), atMost_zero,
          readAll_nil]
        simp [Except.bind, sortedCut]
      rw [atMost_cons hbudget]
      simp only [cut_cons_iff hbudget hnone]
      cases hfailure : s.failure? item with
      | some e =>
          rw [sortFrom_fails _ _ _ hfailure, unlessDone_endWithin hbudget, finish_endWithin,
            s.readAll_cons_of_failure hfailure]
          rfl
      | none =>
        cases hmatch : s.match? item with
        | none =>
            rw [sortFrom_passes _ _ _ hfailure hmatch, unlessDone_endWithin hbudget, ih,
              s.readAll_cons_none hfailure hmatch, s.boundAfter_of_none hmatch]
        | some row =>
            rw [sortFrom_keeps _ _ _ hmatch, unlessDone_endWithin hbudget, ih,
              s.readAll_cons_some hmatch, s.boundAfter_of_some hmatch]
            generalize s.readAll _ = found
            cases found with
            | error e => rfl
            | ok found => simp [Except.map, Except.bind]

/-! ## A whole run -/

/-- How many matching rows a streaming search looks for. -/
def bound (s : Search) : Option Nat :=
  s.constraints.limit.map (s.constraints.offset.getD 0 + ·)

theorem run_filled (horder : s.constraints.order = none)
    (hlimit : s.constraints.limit = some 0) (budget : Option Nat)
    (items : RowStream) : s.run id budget items = .ofRows id [] := by
  rw [run, job, horder]
  dsimp only
  rw [if_pos hlimit, finish_endWithin]
  rfl

theorem run_streaming
    (hproject : ∀ row, s.selection.project row = .ok (f row))
    (horder : s.constraints.order = none)
    (hlimit : s.constraints.limit ≠ some 0) (budget : Option Nat)
    (items : RowStream) :
    s.run id budget items
      = delivered id
        ((s.readAll (s.upTo s.bound (atMost budget items))).map fun found =>
          ⟨(found.drop (s.constraints.offset.getD 0)).map f,
            s.Cut budget s.bound items⟩) := by
  rw [run, job, horder]
  dsimp only
  rw [if_neg hlimit, streamFrom_endWithin hproject _ _ _ _ _ hlimit]
  rfl

theorem run_sorting {order : SortOrder}
    (horder : s.constraints.order = some order) (budget : Option Nat)
    (items : RowStream) :
    s.run id budget items
      = delivered id ((s.readAll (atMost budget items)).bind fun found =>
          (s.sorted order found).map fun rows =>
            ⟨rows, s.Cut budget none items⟩) := by
  rw [run, job, horder]
  dsimp only
  rw [sortFrom_endWithin]
  rfl

/-! ## Sources that can all be read -/

theorem projectAll_eq
    (hproject : ∀ row, s.selection.project row = .ok (f row)) :
    ∀ rows : List Row, s.projectAll rows = .ok (rows.map f)
  | [] => rfl
  | row :: rows => by
      rw [projectAll, hproject, projectAll_eq hproject rows]
      rfl

theorem sortPlaces_eq {index : ColumnIndex} {names : List String}
    (hindex : ∀ name, index.position? name = names.idxOf? name) :
    ∀ {refs : List ColumnRef},
      (∀ ref ∈ refs, ref.column ∈ names) →
        sortPlaces index refs = .ok (refs.map fun ref => names.idxOf ref.column)
  | [], _ => rfl
  | ref :: refs, h => by
      obtain ⟨href, hrefs⟩ := List.forall_mem_cons.mp h
      rw [sortPlaces, hindex, idxOf?_of_mem href]
      dsimp only
      rw [sortPlaces_eq hindex hrefs]
      rfl

theorem page_eq {α : Type} (c : Constraints) (rows : List α) :
    page c rows = atMost c.limit (rows.drop (c.offset.getD 0)) := by
  unfold page atMost
  cases c.limit <;> rfl

theorem not_cut_none (bound : Option Nat)
    (items : RowStream) : ¬ s.Cut none bound items := by
  rintro ⟨⟨n, hn, -⟩, -⟩
  cases hn

end
end Search
end CsvQuery
