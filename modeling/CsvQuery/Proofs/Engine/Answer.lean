/-
A query is answered by what it asks for.

The stages of a run are put together: the header is read and not found in the
cache, the columns are there, the only worker of the pool searches to the end
of the file, and its rows are cut to the most rows allowed.
-/
import CsvQuery.Proofs.Query.Language
import CsvQuery.Proofs.Scheduler.SingleRun
import CsvQuery.Proofs.Search.Scan

namespace CsvQuery

theorem Query.Sorts.unique {q : Query} {names : List String}
    {matching s t : List Row} (hs : q.Sorts names matching s)
    (ht : q.Sorts names matching t) : s = t := by
  unfold Sorts at hs ht
  cases horder : q.constraints.order with
  | none =>
      rw [horder] at hs ht
      rw [hs, ht]
  | some order =>
      rw [horder] at hs ht
      exact StablySorted.unique (oriented_compareIn names order) hs ht

/-- What a query asks for is one outcome. -/
theorem Query.IsAnswer.unique {q : Query} {names : List String}
    {rows : List Row} {maxRows : Option Nat} {o o' : Outcome}
    (h : q.IsAnswer names rows maxRows o)
    (h' : q.IsAnswer names rows maxRows o') : o = o' := by
  obtain ⟨herrors, htime, hall, hselected, s, hs, hrows⟩ := h
  obtain ⟨herrors', htime', hall', hselected', t, ht, hrows'⟩ := h'
  obtain rfl := hs.unique ht
  cases o
  cases o'
  simp_all

/-! ## Conditions -/

/-- A star stands alone in a select list. -/
theorem Grammar.Spells.select_cases {files : Files} {tokens : List String}
    {q : Query} (h : Spells files tokens q) :
    q.select = [.all] ∨
    ∃ refs : List ColumnRef, q.select = refs.map .column := by
  obtain ⟨⟨-, hlist, -⟩, -, -⟩ := h
  cases hlist with
  | star => exact .inl rfl
  | columns _ _ => exact .inr ⟨_, rfl⟩

/-- The selection of a query has the query's columns. -/
theorem Selection.ofItems_eq {q : Query} {h : Header}
    (hselect : q.select = [.all] ∨
      ∃ refs : List ColumnRef, q.select = refs.map .column)
    (hknown : ∀ name ∈ q.selectedNames, name ∈ h.names) :
    ofItems h q.select = .ok (ofColumns h.names (q.columnsOf h.names)) := by
  unfold ofItems Query.columnsOf Query.selectsAll
  rcases hselect with hall | ⟨refs, hrefs⟩
  · rw [hall]
    simp [all_eq]
  · have hnone : q.select.contains .all = false := by simp [hrefs]
    have hselectsAll : (q.select == [.all]) = false := by
      rw [hrefs]
      cases refs with
      | nil => rfl
      | cons ref refs => simp
    rw [hnone, hselectsAll]
    exact named_eq hknown

theorem missingColumns_eq_nil_iff {q : Query} {h : Header} :
    Engine.missingColumns h q = [] ↔
      ∀ name ∈ q.selectedNames ++ q.sortNames, name ∈ h.names := by
  rw [Engine.missingColumns, List.filter_eq_nil_iff]
  simp [Header.position?, or_imp, forall_and]

theorem Query.sortNames_eq {q : Query} {order : SortOrder}
    (h : q.constraints.order = some order) :
    q.sortNames = order.columns.map ColumnRef.column := by
  rw [sortNames, h]

theorem cutRows_eq {α : Type} (maxRows : Option Nat) (rows : List α) :
    Engine.cutRows maxRows rows = atMost maxRows rows := by
  cases maxRows <;> rfl

theorem atMost_map {α β : Type} (f : α → β) (bound : Option Nat) (l : List α) :
    atMost bound (l.map f) = (atMost bound l).map f := by
  cases bound with
  | none => rfl
  | some n => exact List.map_take.symm

end CsvQuery
