/-
What a search can come to.

However a search is run, what it finds is a page of projected rows, and a
search that fails does so at an item: it could not be read, or a condition
could not be decided for it.  Nothing else is left to fail, as the places of a
sort order are those of columns that are there, and projecting never fails.
-/
import CsvQuery.Proofs.Search.Deadline
import CsvQuery.Proofs.Search.Sorting

namespace CsvQuery

/-- A failure that an item of a source can bring about. -/
inductive QueryError.OfItem : QueryError → Prop
  | source (error : SourceError) : OfItem (.source error)
  | resolve (error : ResolveError) : OfItem (.resolve error)

namespace Search

section
variable {s : Search} {items : RowStream}

theorem failure?_ofItem {item : Except SourceError Row} {e : QueryError}
    (h : s.failure? item = some e) : e.OfItem := by
  cases item with
  | error error =>
      cases h
      exact .source error
  | ok row =>
      rw [failure?_ok_eq_some_iff] at h
      unfold accepts at h
      cases hholds : s.chain.holds s.index row with
      | ok b =>
          rw [hholds] at h
          cases h
      | error error =>
          rw [hholds] at h
          cases h
          exact .resolve error

theorem readAll_ofItem {e : QueryError}
    (h : s.readAll items = .error e) : e.OfItem := by
  obtain ⟨item, -, hfailure⟩ :=
    List.exists_of_findSome?_eq_some (s.readAll_eq_error_iff.mp h)
  exact failure?_ofItem hfailure

/-- A search whose sort columns are there finds a page of rows, in the selected
columns, or fails at an item. -/
theorem found_cases {f : Row → ResultRow}
    (hproject : ∀ row, s.selection.project row = .ok (f row))
    (hplaces : ∀ order ∈ s.constraints.order,
      ∃ places, sortPlaces s.index order.columns = .ok places)
    (items : RowStream) :
    (∃ rows : List Row,
      s.found items = .ok ((atMost s.constraints.limit rows).map f)) ∨
      ∃ e, e.OfItem ∧ s.found items = .error e := by
  unfold found
  cases horder : s.constraints.order with
  | some order =>
      dsimp only
      cases hread : s.readAll items with
      | error e => exact .inr ⟨e, readAll_ofItem hread, rfl⟩
      | ok matching =>
          obtain ⟨places, hplaces⟩ := hplaces order horder
          refine .inl ⟨(matching.mergeSort (inOrder order.direction places)).drop
            (s.constraints.offset.getD 0), ?_⟩
          dsimp only [Except.bind]
          rw [sorted, hplaces]
          dsimp only [bind, Except.bind]
          rw [projectAll_eq hproject, page_eq]
  | none =>
      dsimp only
      by_cases hlimit : s.constraints.limit = some 0
      · refine .inl ⟨[], ?_⟩
        rw [if_pos hlimit, atMost_nil]
        rfl
      · rw [if_neg hlimit]
        cases hread : s.readAll (s.upTo s.bound items) with
        | error e => exact .inr ⟨e, readAll_ofItem hread, rfl⟩
        | ok matching =>
            obtain ⟨-, rfl⟩ := s.readAll_eq_ok_iff.mp hread
            refine .inl ⟨(s.matching items).drop (s.constraints.offset.getD 0), ?_⟩
            dsimp only [Except.bind]
            rw [projectAll_eq hproject, matching_upTo, bound, drop_atMost]

end
end Search
end CsvQuery
