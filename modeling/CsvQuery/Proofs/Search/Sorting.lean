/-
Sorting is a stable sort of all matching rows, before any paging.

A sorting search reads its source to the end, so a failure anywhere in it
fails the search whatever page was asked for.  The rows it delivers are a page
of the one list that has the matching rows in the order of the keys, ties
standing as they were read, for both directions alike.  That list is sorted
already, and where all rows tie it is the list of the rows as they were read,
so that sorting by nothing is not sorting.
-/
import CsvQuery.Proofs.Search.Scan

namespace CsvQuery
namespace Search

/-- The search without its sort order. -/
def unsorted (s : Search) : Search :=
  { s with constraints := { s.constraints with order := none } }

section
variable {s : Search} {id : WorkerId} {order : SortOrder} {items : RowStream}

theorem mergeSort_of_inOrder {α : Type} {cmp : α → α → Ordering} {rows : List α}
    (h : rows.Pairwise fun a b => cmp a b ≠ .gt) :
    (rows.mergeSort fun a b => cmp a b != .gt) = rows := by
  refine List.mergeSort_of_pairwise (h.imp fun hab => ?_)
  simpa using hab

theorem run_fails (horder : s.constraints.order = some order) {e : QueryError}
    (h : s.firstFailure? items = some e) :
    s.run id none items = .failed id (.job id e) := by
  rw [run_sorting horder, atMost_none, s.readAll_eq_error_iff.mpr h]
  rfl

theorem sortPlaces_ofHeader {h : Header} (hindex : s.index = .ofHeader h)
    (hkeys : ∀ ref ∈ order.columns, ref.column ∈ h.names) :
    sortPlaces s.index order.columns
      = .ok (order.columns.map fun ref => h.names.idxOf ref.column) := by
  refine sortPlaces_eq (fun name => ?_) hkeys
  rw [hindex, ColumnIndex.position?_ofHeader]

/-- The rows of a search that reads its whole source are a page of the sorted
ones. -/
theorem run_sorted {h : Header} (horder : s.constraints.order = some order)
    (hindex : s.index = .ofHeader h)
    (hkeys : ∀ ref ∈ order.columns, ref.column ∈ h.names)
    {f : Row → ResultRow}
    (hproject : ∀ row, s.selection.project row = .ok (f row))
    (hread : s.firstFailure? items = none) :
    s.run id none items
      = .ofRows id ((page s.constraints ((s.matching items).mergeSort
      fun a b => Table.compareIn h.names order a b != .gt)).map f) := by
  rw [run_sorting horder, atMost_none, s.readAll_eq_ok_iff.mpr ⟨hread, rfl⟩,
    decide_eq_false (not_cut_none none _)]
  dsimp only [Except.bind]
  rw [sorted, sortPlaces_ofHeader hindex hkeys]
  dsimp only [bind, Except.bind]
  rw [inOrder_eq, projectAll_eq hproject]
  rfl

/-- A streaming search of a source that can all be read. -/
theorem run_unsorted (horder : s.constraints.order = none)
    {f : Row → ResultRow}
    (hproject : ∀ row, s.selection.project row = .ok (f row))
    (hread : s.firstFailure? items = none) :
    s.run id none items
      = .ofRows id ((page s.constraints (s.matching items)).map f) := by
  rw [page_eq]
  by_cases hlimit : s.constraints.limit = some 0
  · rw [run_filled horder hlimit, hlimit, atMost_zero]
    rfl
  · have hall := s.readAll_upTo (s.readAll_eq_ok_iff.mpr ⟨hread, rfl⟩) s.bound
    rw [run_streaming hproject horder hlimit, atMost_none, hall,
      decide_eq_false (not_cut_none _ _), ← drop_atMost]
    rfl

end

/-- A sorting search without a deadline to stop it. -/
theorem sorting_is_stable_before_paging (s : Search) (id : WorkerId)
    (items : RowStream) {order : SortOrder} {h : Header}
    (horder : s.constraints.order = some order)
    (hindex : s.index = .ofHeader h) :
    (∀ item ∈ items, s.failure? item ≠ none →
        ∃ e, s.firstFailure? items = some e ∧
      s.run id none items = .failed id (.job id e)) ∧
    ((∀ item ∈ items, s.failure? item = none) →
      (∀ ref ∈ order.columns, ref.column ∈ h.names) →
      (∀ ref ∈ order.columns,
        ConsistentOn sortCompare
          ((s.matching items).map (Table.field h.names · ref.column))) →
      ∃ sorted rows,
        (∀ list, StablySorted (Table.compareIn h.names order)
          (s.matching items) list ↔
          list = sorted) ∧
        s.run id none items = .ofRows id rows ∧
        rows.map .ok = (atMost s.constraints.limit
          (sorted.drop (s.constraints.offset.getD 0))).map s.selection.project ∧
        (∀ places, sortPlaces s.index order.columns = .ok places →
          sorted.mergeSort (inOrder order.direction places) = sorted) ∧
        ((∀ a ∈ s.matching items, ∀ b ∈ s.matching items,
            Table.compareBy h.names order.columns a b = .eq) →
          s.run id none items = s.unsorted.run id none items)) := by
  constructor
  · intro item hitem hfails
    have hsome : (s.firstFailure? items).isSome :=
      List.findSome?_isSome_iff.mpr ⟨item, hitem, Option.isSome_iff_ne_none.mpr hfails⟩
    obtain ⟨e, he⟩ := Option.isSome_iff_exists.mp hsome
    exact ⟨e, he, run_fails horder he⟩
  · intro hnone hkeys hconsistent
    have hread : s.firstFailure? items = none := List.findSome?_eq_none_iff.mpr hnone
    have horiented := oriented_compareIn h.names order
    have hsorted :=
      stablySorted_mergeSort horiented (consistentOn_compareIn hconsistent)
    obtain ⟨f, hproject⟩ := s.selection.exists_project
    have hrun : s.run id none items = _ := run_sorted horder hindex hkeys hproject hread
    refine ⟨(s.matching items).mergeSort fun a b => Table.compareIn h.names order a b != .gt, _,
      ?_, hrun, ?_, ?_, ?_⟩
    · intro list
      constructor
      · intro hlist
        exact hlist.unique horiented hsorted
      · rintro rfl
        exact hsorted
    · rw [page_eq, List.map_map]
      exact List.map_congr_left fun row _ => (hproject row).symm
    · intro places hplaces
      rw [sortPlaces_ofHeader hindex hkeys, Except.ok.injEq] at hplaces
      rw [← hplaces, inOrder_eq]
      exact mergeSort_of_inOrder hsorted.inOrder
    · intro hties
      have hinOrder : (s.matching items).Pairwise
          fun a b => Table.compareIn h.names order a b ≠ .gt := by
        refine List.pairwise_of_forall_mem_list fun a ha b hb => ?_
        have htie := hties a ha b hb
        unfold Table.compareIn
        cases order.direction <;> simp [htie]
      rw [hrun, mergeSort_of_inOrder hinOrder]
      exact (run_unsorted (s := s.unsorted) rfl hproject hread).symm

/-- Two rows behind the one with the largest `n`. -/
def behindLargest : Search where
  selection := ⟨["k"], [(1, "k")]⟩
  index := .ofHeader ⟨⟨"t.csv"⟩, ["n", "k"]⟩
  chain := ⟨[]⟩
  constraints := { limit := some 2, offset := some 1, order := some ⟨[⟨"e", "n"⟩], .descending⟩ }

/-- Ties and a short row, sorted downwards. -/
theorem ties_stand_as_read :
    (∀ item ∈ ([.ok ["1", "x"], .ok [], .ok ["2", "y"],
      .ok ["1", "z"]] : RowStream),
      behindLargest.failure? item = none) ∧
    ConsistentOn sortCompare ["1", "", "2", "1"] ∧
    ∃ sorted rows,
      StablySorted (Table.compareIn ["n", "k"] ⟨[⟨"e", "n"⟩], .descending⟩)
        [["1", "x"], [], ["2", "y"], ["1", "z"]] sorted ∧
      behindLargest.run 1 none [.ok ["1", "x"], .ok [], .ok ["2", "y"],
        .ok ["1", "z"]]
        = .ofRows 1 rows ∧
      rows.map .ok = ((sorted.drop 1).take 2).map
        behindLargest.selection.project := by
  have hreadable : ∀ item ∈ ([.ok ["1", "x"], .ok [], .ok ["2", "y"], .ok ["1", "z"]] : RowStream),
      behindLargest.failure? item = none := by decide +kernel
  have hconsistent : ConsistentOn sortCompare ["1", "", "2", "1"] := by
    unfold ConsistentOn
    decide +kernel
  obtain ⟨-, hsorting⟩ := sorting_is_stable_before_paging behindLargest 1
    [.ok ["1", "x"], .ok [], .ok ["2", "y"], .ok ["1", "z"]]
    rfl rfl
  obtain ⟨sorted, rows, hunique, hrun, hpage, -⟩ := hsorting hreadable (by decide) (by
    intro ref href
    rw [List.mem_singleton.mp href]
    exact hconsistent)
  exact ⟨hreadable, hconsistent, sorted, rows, (hunique sorted).mpr rfl, hrun, hpage⟩

end Search
end CsvQuery
