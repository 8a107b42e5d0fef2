/-
A deadline cuts the source, and nothing else.

A search asks its deadline before every read.  Once the deadline is done the
search works on with the rows it has read: the row that was read while the
deadline came is still decided, and sorting and paging are as ever.  So a
search with a deadline delivers what it would deliver without one from a source
that ends where the deadline came; only the mark that the deadline was exceeded
tells the two apart, and a failed search or one that had filled its limit does
not carry it.
-/
import CsvQuery.Proofs.Search.Streaming

namespace CsvQuery
namespace Search

section
variable (s : Search)

/-- What a search finds in the items that its deadline lets it read. -/
def found (items : RowStream) : Except QueryError (List ResultRow) :=
  match s.constraints.order with
  | some order => (s.readAll items).bind (s.sorted order)
  | none =>
    if s.constraints.limit = some 0 then .ok []
    else (s.readAll (s.upTo s.bound items)).bind fun rows =>
      s.projectAll (rows.drop (s.constraints.offset.getD 0))

/-- Does a search want to read on behind these items?  A sorting search always
does, a streaming search until its limit is filled. -/
def Unfilled (items : RowStream) : Prop :=
  s.constraints.order.isSome ∨
    ∀ limit ∈ s.constraints.limit,
      ((s.matching items).drop (s.constraints.offset.getD 0)).length < limit

instance (items : RowStream) : Decidable (s.Unfilled items) :=
  inferInstanceAs (Decidable (_ ∨ _))

/-- Does the deadline stop a search that would read on? -/
def Stopped (budget : Option Nat) (items : RowStream) : Prop :=
  (∃ n ∈ budget, n ≤ items.length) ∧ s.Unfilled (atMost budget items)

instance (budget : Option Nat) (items : RowStream) :
    Decidable (s.Stopped budget items) :=
  inferInstanceAs (Decidable (_ ∧ _))

end

section
variable {s : Search} {id : WorkerId}

theorem stopped_iff_cut_of_sorting {order : SortOrder}
    (horder : s.constraints.order = some order) (budget : Option Nat)
    (items : RowStream) :
    s.Stopped budget items ↔ s.Cut budget none items := by
  simp [Stopped, Unfilled, Cut, horder]

theorem stopped_iff_cut_of_streaming (horder : s.constraints.order = none)
    (hlimit : s.constraints.limit ≠ some 0) (budget : Option Nat)
    (items : RowStream) :
    s.Stopped budget items ↔ s.Cut budget s.bound items := by
  unfold Stopped Unfilled Cut bound
  apply and_congr_right
  intro _
  rw [horder]
  cases hlimit' : s.constraints.limit with
  | none => simp
  | some limit =>
      have hpos : limit ≠ 0 := fun hzero => hlimit (hzero ▸ hlimit')
      simp
      omega

/-- Every run of a search, with a deadline or without. -/
theorem run_eq_found (s : Search) (id : WorkerId) (budget : Option Nat)
    (items : RowStream) :
    s.run id budget items = delivered id ((s.found (atMost budget items)).map
      fun rows => ⟨rows, s.Stopped budget items⟩) := by
  unfold found
  cases horder : s.constraints.order with
  | some order =>
      have hstopped := stopped_iff_cut_of_sorting horder budget items
      dsimp only
      rw [run_sorting horder, decide_eq_decide.mpr hstopped]
      cases s.readAll (atMost budget items) <;> rfl
  | none =>
      dsimp only
      by_cases hlimit : s.constraints.limit = some 0
      · have hfilled : ¬ s.Stopped budget items := by
          simp [Stopped, Unfilled, horder, hlimit]
        rw [if_pos hlimit, run_filled horder hlimit, decide_eq_false hfilled]
        rfl
      · have hstopped := stopped_iff_cut_of_streaming horder hlimit budget items
        obtain ⟨f, hproject⟩ := s.selection.exists_project
        rw [if_neg hlimit, run_streaming hproject horder hlimit,
          decide_eq_decide.mpr hstopped]
        cases s.readAll (s.upTo s.bound (atMost budget items)) with
        | error e => rfl
        | ok rows =>
            dsimp only [Except.bind]
            rw [projectAll_eq hproject]
            rfl

/-! ## What the mark changes -/

section
variable (id : WorkerId) (rows : Except QueryError (List ResultRow))
  (mark mark' : Bool)

theorem delivered_rows : (delivered id (rows.map fun rows => ⟨rows, mark⟩)).rows
    = (delivered id (rows.map fun rows => ⟨rows, mark'⟩)).rows := by
  cases rows <;> rfl

theorem delivered_errors :
    (delivered id (rows.map fun rows => ⟨rows, mark⟩)).errors
    = (delivered id (rows.map fun rows => ⟨rows, mark'⟩)).errors := by
  cases rows <;> rfl

theorem delivered_mark :
    (delivered id (rows.map fun rows => ⟨rows, mark⟩)).deadlineExceeded
      = (mark &&
        (delivered id (rows.map fun rows => ⟨rows, mark⟩)).errors.isEmpty) := by
  cases rows <;> simp [delivered, Except.map, JobResult.failed]

end

/-! ## Less to read -/

theorem found_of_errors_eq_nil {items : RowStream}
    (h : (s.run id none items).errors = []) :
    ∃ rows, s.found items = .ok rows ∧ (s.run id none items).rows = rows := by
  rw [run_eq_found] at h ⊢
  rw [atMost_none] at h ⊢
  cases hfound : s.found items with
  | error e =>
      rw [hfound] at h
      cases h
  | ok rows => exact ⟨rows, rfl, rfl⟩

/-- A streaming search that reads less of a source that can be read finds the
first of its rows. -/
theorem found_prefix (horder : s.constraints.order = none)
    {items items' : RowStream} (hitems : items' <+: items)
    {rows : List ResultRow} (h : s.found items = .ok rows) :
    ∃ rows', s.found items' = .ok rows' ∧ rows' <+: rows := by
  unfold found at h ⊢
  rw [horder] at h ⊢
  dsimp only at h ⊢
  by_cases hlimit : s.constraints.limit = some 0
  · rw [if_pos hlimit] at h ⊢
    exact ⟨rows, h, List.prefix_rfl⟩
  · rw [if_neg hlimit] at h ⊢
    obtain ⟨f, hproject⟩ := s.selection.exists_project
    have hupTo := s.upTo_prefix s.bound hitems
    cases hread : s.readAll (s.upTo s.bound items) with
    | error e =>
        rw [hread] at h
        cases h
    | ok matching =>
        rw [hread] at h
        obtain ⟨hnone, rfl⟩ := s.readAll_eq_ok_iff.mp hread
        have hread' :
            s.readAll (s.upTo s.bound items') = .ok (s.matching (s.upTo s.bound items')) :=
          s.readAll_eq_ok_iff.mpr ⟨s.firstFailure?_of_prefix hupTo hnone, rfl⟩
        dsimp only [Except.bind] at h
        rw [projectAll_eq hproject] at h
        cases h
        refine ⟨((s.matching (s.upTo s.bound items')).drop
          (s.constraints.offset.getD 0)).map f, ?_, ?_⟩
        · rw [hread']
          exact projectAll_eq hproject _
        · obtain ⟨rest, hrest⟩ := List.IsPrefix.filterMap s.match? hupTo
          rw [matching, matching, ← hrest, List.drop_append]
          exact (List.prefix_append _ _).map f

end

/-- A search whose deadline is done after `n` rows. -/
theorem deadline_cuts_source (s : Search) (id : WorkerId) (items : RowStream)
    (n : Nat) :
    (s.run id (some n) items).rows = (s.run id none (items.take n)).rows ∧
    (s.run id (some n) items).errors = (s.run id none (items.take n)).errors ∧
    ((s.run id (some n) items).errors ≠ [] →
      (s.run id (some n) items).deadlineExceeded = false) ∧
    (n ≤ items.length → (s.run id (some n) items).errors = [] →
      ((s.run id (some n) items).deadlineExceeded = true ↔
        s.constraints.order.isSome ∨ ∀ limit ∈ s.constraints.limit,
          ((s.matching (items.take n)).drop
            (s.constraints.offset.getD 0)).length < limit)) ∧
    (s.constraints.order = none → (s.run id none items).errors = [] →
      (s.run id (some n) items).rows <+: (s.run id none items).rows) := by
  have hrows : (s.run id (some n) items).rows = (s.run id none (items.take n)).rows := by
    rw [run_eq_found, run_eq_found, atMost_none]
    exact delivered_rows ..
  refine ⟨hrows, ?_, ?_, ?_, ?_⟩
  · rw [run_eq_found, run_eq_found, atMost_none]
    exact delivered_errors ..
  · intro herrors
    rw [run_eq_found] at herrors ⊢
    rw [delivered_mark, List.isEmpty_eq_false_iff.mpr herrors, Bool.and_false]
  · intro hn herrors
    rw [run_eq_found] at herrors ⊢
    rw [delivered_mark, herrors, List.isEmpty_nil, Bool.and_true, decide_eq_true_iff]
    exact and_iff_right ⟨n, rfl, hn⟩
  · intro horder herrors
    obtain ⟨rows, hfound, hall⟩ := found_of_errors_eq_nil herrors
    obtain ⟨rows', hfound', hprefix⟩ :=
      found_prefix horder (List.take_prefix n items) hfound
    rw [hrows, hall, run_eq_found, atMost_none, hfound']
    exact hprefix

/-- The deadline comes one row before the limit is filled, or after a
failure. -/
theorem deadline_one_row_early :
    (secondOther.run 1 (some 2) [.ok ["a"], .ok ["b"], .ok ["c"],
      .error (.noHeader "t")]).errors
        = [] ∧
    (secondOther.run 1 (some 2)
      [.ok ["a"], .ok ["b"], .ok ["c"],
        .error (.noHeader "t")]).deadlineExceeded = true ∧
    (secondOther.run 1 none [.ok ["a"], .ok ["b"], .ok ["c"],
      .error (.noHeader "t")]).errors
        = [] ∧
    (secondOther.run 1 (some 2) [.ok ["a"], .ok ["b"], .ok ["c"],
      .error (.noHeader "t")]).rows
        <+: (secondOther.run 1 none
          [.ok ["a"], .ok ["b"], .ok ["c"], .error (.noHeader "t")]).rows ∧
    (secondOther.run 1 (some 2) [.ok ["a"], .error (.noHeader "t")]).errors
      ≠ [] ∧
    (secondOther.run 1 (some 2) [.ok ["a"],
      .error (.noHeader "t")]).deadlineExceeded = false := by
  obtain ⟨-, -, -, hmark, hprefix⟩ := deadline_cuts_source secondOther 1
    [.ok ["a"], .ok ["b"], .ok ["c"], .error (.noHeader "t")] 2
  obtain ⟨-, -, hfailed, -⟩ := deadline_cuts_source secondOther 1
    [.ok ["a"], .error (.noHeader "t")] 2
  have hcut : (secondOther.run 1 (some 2)
      [.ok ["a"], .ok ["b"], .ok ["c"], .error (.noHeader "t")]).errors = [] := by
    decide +kernel
  have hwhole : (secondOther.run 1 none
      [.ok ["a"], .ok ["b"], .ok ["c"], .error (.noHeader "t")]).errors = [] := by
    decide +kernel
  have herrors : (secondOther.run 1 (some 2) [.ok ["a"], .error (.noHeader "t")]).errors ≠ [] := by
    decide +kernel
  exact ⟨hcut, (hmark (by decide) hcut).mpr (by decide +kernel), hwhole, hprefix rfl hwhole,
    herrors, hfailed herrors⟩

end Search
end CsvQuery
