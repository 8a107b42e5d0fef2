/-
Every outcome is a failure or a table.

A failure has errors and nothing else.  A table has columns, each of them once
and all of them in the header, rows with exactly these columns, and no more
rows than the query and the settings allow.

That there are columns at all comes from two sides: a select list names some,
and a star stands for those of the header, of which there are some in every
file whose header could be read (`Headed`).
-/
import CsvQuery.Proofs.Engine.Outcomes

namespace CsvQuery

/-- Errors, and nothing else. -/
structure Outcome.IsFailure (o : Outcome) : Prop where
  errors : o.errors ≠ []
  rows : o.rows = []
  selectedColumns : o.selectedColumns = []
  allColumns : o.allColumns = []
  inTime : o.deadlineExceeded = false

/-- Rows with the selected columns, no more of them than either bound allows. -/
structure Outcome.IsTable (o : Outcome)
    (limit maxRows : Option Nat) : Prop where
  errors : o.errors = []
  selects : o.selectedColumns ≠ []
  once : o.selectedColumns.Nodup
  known : ∀ name ∈ o.selectedColumns, name ∈ o.allColumns
  keys : ∀ row ∈ o.rows, (row.map Prod.fst).Perm o.selectedColumns
  limited : ∀ n ∈ limit, o.rows.length ≤ n
  cut : ∀ n ∈ maxRows, o.rows.length ≤ n

theorem Outcome.isFailure_failed {errors : List QueryError} (h : errors ≠ []) :
    (failed errors).IsFailure :=
  ⟨h, rfl, rfl, rfl, rfl⟩

/-! ## Columns -/

/-- The keys of a projected row are the selected columns. -/
theorem project_keys {names selected : List String} (nodup : selected.Nodup)
    (known : ∀ name ∈ selected, name ∈ names) (row : Row) :
    ((Table.project names selected row).map Prod.fst).Perm selected := by
  have hkeys : (Table.project names selected row).map Prod.fst
      = names.eraseDups.filter selected.contains := by
    simp [Table.project, Function.comp_def]
  rw [hkeys, List.perm_ext_iff_of_nodup ((nodup_eraseDups names).filter _) nodup]
  intro name
  simpa using known name

theorem refs_ne_nil {tokens : List String} {refs : List ColumnRef}
    (h : Grammar.Refs tokens refs) : refs ≠ [] := by
  cases h <;> exact List.cons_ne_nil _ _

/-- A query selects columns, and each of them once. -/
theorem selectedNames_of_parse {files : Files} {sql : String} {q : Query}
    (h : Query.parse files sql = .ok q) :
    q.selectsAll = true ∨ q.selectsAll = false ∧ q.selectedNames ≠ [] ∧
    q.selectedNames.Nodup := by
  have hspells := spells_of_ofTokens h
  generalize tokenize sql = tokens at hspells
  obtain ⟨⟨-, hlist, -⟩, -, -⟩ := hspells
  cases hlist with
  | star => exact .inl rfl
  | @columns tokens refs hrefs hnodup =>
      have hnames : (refs.map SelectItem.column).filterMap SelectItem.column?
          = refs.map ColumnRef.column := by
        rw [List.filterMap_map]
        exact congrFun List.filterMap_eq_map refs
      have hne : refs ≠ [] := refs_ne_nil hrefs
      refine .inr ⟨?_, ?_, ?_⟩
      · cases refs with
        | nil => rfl
        | cons ref refs => simp [Query.selectsAll]
      · simpa [Query.selectedNames, hnames] using hne
      · simpa [Query.selectedNames, hnames] using hnodup

namespace Engine

/-- The columns of an answer: some, each once, and all in the header. -/
theorem columnsOf_of_parse {files : Files} {sql : String} {q : Query}
    {h : Header} (hparse : Query.parse files sql = .ok q)
    (hnames : h.names ≠ []) (hmissing : missingColumns h q = []) :
    q.columnsOf h.names ≠ [] ∧ (q.columnsOf h.names).Nodup ∧
      ∀ name ∈ q.columnsOf h.names, name ∈ h.names := by
  unfold Query.columnsOf
  rcases selectedNames_of_parse hparse with hall | ⟨hall, hne, hnodup⟩
  · rw [if_pos hall]
    refine ⟨?_, nodup_eraseDups h.names, ?_⟩
    · obtain ⟨name, hname⟩ := List.exists_mem_of_ne_nil _ hnames
      exact List.ne_nil_of_mem (List.mem_eraseDups.mpr hname)
    · intro name hname
      exact List.mem_eraseDups.mp hname
  · rw [if_neg (by simp [hall])]
    refine ⟨hne, hnodup, ?_⟩
    intro name hname
    exact missingColumns_eq_nil_iff.mp hmissing name (List.mem_append_left _ hname)

/-! ## Headers -/

theorem decodeCells_ne_nil {cells : List (List UInt8)} {p : Csv.Position}
    {k : Nat} {row : Row} (hcells : cells ≠ [])
    (h : CsvSource.decodeCells p k cells = .ok row) : row ≠ [] := by
  cases cells with
  | nil => exact absurd rfl hcells
  | cons cell cells =>
      rw [CsvSource.decodeCells] at h
      split at h
      · cases h
      · cases hrest : CsvSource.decodeCells p (k + 1) cells with
        | error e =>
            rw [hrest] at h
            cases h
        | ok rest =>
            rw [hrest] at h
            cases h
            exact List.cons_ne_nil _ _

/-- No header without columns is ever read. -/
theorem names_ne_nil_of_read {files : Files} {path : Path} {h : Header}
    (hread : Header.read files path = .ok h) : h.names ≠ [] := by
  obtain ⟨-, source, -, hrow⟩ := Header.read_eq_ok_iff.mp hread
  unfold CsvSource.headerRow at hrow
  split at hrow
  · cases hrow
  next hheader =>
    cases hcells : CsvSource.decodeCells .start 0 source.header with
    | error e =>
        rw [hcells] at hrow
        cases hrow
    | ok row =>
        rw [hcells] at hrow
        have hnames : row.map Text.trim = h.names := Except.ok.inj hrow
        rw [← hnames]
        simpa using decodeCells_ne_nil (by simpa using hheader) hcells

/-- Every header that is kept has columns. -/
def World.Headed (w : World) : Prop :=
  ∀ table h, w.engine.cache.find? table = some h → h.names ≠ []

theorem World.Headed.change {w w' : World} {event : Event} {use : Option Query}
    (h : w.Headed) (change : Change w event use w') : w'.Headed :=
  change.kept h fun _ _ => names_ne_nil_of_read

theorem World.headed_live (settings : Settings) (files : Files)
    (events : List Event) :
    ((new settings files).live events).Headed := by
  refine keep (fun _ w => w.Headed) events ?_ [] ?_
  · intro event _ uses w use w' change h
    exact h.change change
  · intro table h hfind
    cases hfind

/-- The header that a query gets has columns. -/
theorem World.Headed.headerFor {w : World} (headed : w.Headed) {q : Query}
    {h : Header}
    (hheader : (Engine.headerFor w.files w.engine.cache q).1 = .ok h) :
    h.names ≠ [] := by
  rcases headerFor_eq_ok_iff.mp hheader with hcached | ⟨-, hread⟩
  · exact headed q.table h (HeaderCache.header?_eq_some_iff.mp hcached).1
  · exact names_ne_nil_of_read hread

/-! ## Outcomes -/

theorem length_atMost_le {α : Type} (bound : Option Nat) (l : List α) :
    (atMost bound l).length ≤ l.length := by
  cases bound with
  | none => exact Nat.le_refl _
  | some n => exact List.length_take_le' n l

theorem length_atMost_le_of_mem {α : Type} {bound : Option Nat} {n : Nat}
    (h : n ∈ bound) (l : List α) : (atMost bound l).length ≤ n := by
  cases h
  exact List.length_take_le n l

theorem isTable_tableOf {files : Files} {sql : String} {q : Query}
    {h : Header} (hparse : Query.parse files sql = .ok q)
    (hnames : h.names ≠ []) (hmissing : missingColumns h q = [])
    (maxRows : Option Nat) (rows : List Row) (mark : Bool) :
    (tableOf maxRows h q rows mark).IsTable q.constraints.limit maxRows := by
  obtain ⟨hselects, honce, hknown⟩ := columnsOf_of_parse hparse hnames hmissing
  refine ⟨rfl, hselects, honce, hknown, ?_, ?_, ?_⟩
  · intro fields hfields
    obtain ⟨row, -, rfl⟩ := List.mem_map.mp hfields
    exact project_keys honce hknown row
  · intro n hn
    rw [tableOf, List.length_map]
    exact Nat.le_trans (length_atMost_le _ _) (length_atMost_le_of_mem hn _)
  · intro n hn
    rw [tableOf, List.length_map]
    exact length_atMost_le_of_mem hn _

/-- After any history of an engine every run of a query text, whenever its time
is up, ends with a failure or with a table. -/
theorem World.failure_or_table (settings : Settings) (files : Files)
    (events : List Event) (timeout : Nat) (sql : String) {w : World}
    (lived : (new settings files).live events = w) :
    w.CanYield timeout sql (w.outcome timeout sql) ∧
      ∀ o, w.CanYield timeout sql o → o.IsFailure ∨
        ∃ q, Query.parse w.files sql = .ok q ∧
          o.IsTable q.constraints.limit settings.maxRows := by
  have headed := headed_live settings files events
  have hsettings := live_settings (new settings files) events
  rw [lived] at headed hsettings
  refine ⟨w.canYield_outcome timeout sql, ?_⟩
  intro o yields
  cases yields.ends with
  | refused hparse =>
      exact .inl (Outcome.isFailure_failed (by simpa using errors_ne_nil_of_parse hparse))
  | unread => exact .inl (Outcome.isFailure_failed (List.cons_ne_nil _ _))
  | unopened => exact .inl (Outcome.isFailure_failed (List.cons_ne_nil _ _))
  | lacking _ _ hmissing =>
      exact .inl (Outcome.isFailure_failed (by simpa using hmissing))
  | faulty => exact .inl (Outcome.isFailure_failed (List.cons_ne_nil _ _))
  | answered hparse hheader hmissing =>
      refine .inr ⟨_, hparse, ?_⟩
      rw [hsettings]
      exact isTable_tableOf hparse (headed.headerFor hheader) hmissing _ _ _

/-- A file whose header has `a` twice, with rows shorter and longer than
that. -/
def repeatedName : Files :=
  World.filesWith [97, 44, 98, 44, 97, 10, 49, 10, 50, 44, 51, 44, 52, 44, 53, 10, 54, 10] []

/-- The cache has the header already, and the settings cut off the third row. -/
theorem table_of_repeated_name :
    let w := (World.new (Settings.standard.withMaxRows 2) repeatedName).live
      [.run 1 "SELECT * FROM path:t.csv AS e"]
    (w.outcome 1 "SELECT * FROM path:t.csv AS e LIMIT 3").IsTable (some 3) (some 2) ∧
      (w.outcome 1 "SELECT * FROM path:t.csv AS e LIMIT 3").rows
        = [[("a", "1"), ("b", "")], [("a", "2"), ("b", "3")]] := by
  obtain ⟨hyields, hall⟩ :=
    World.failure_or_table (Settings.standard.withMaxRows 2) repeatedName
    [.run 1 "SELECT * FROM path:t.csv AS e"] 1 "SELECT * FROM path:t.csv AS e LIMIT 3" rfl
  have hrows : Outcome.rows (((World.new (Settings.standard.withMaxRows 2) repeatedName).live
      [.run 1 "SELECT * FROM path:t.csv AS e"]).outcome 1
        "SELECT * FROM path:t.csv AS e LIMIT 3")
      = [[("a", "1"), ("b", "")], [("a", "2"), ("b", "3")]] := by
    decide +kernel
  have hparse : Query.parse repeatedName "SELECT * FROM path:t.csv AS e LIMIT 3"
      = .ok { select := [.all], path := ⟨"t.csv"⟩, table := "e", conditions := [],
              constraints := { limit := some 3 } } :=
    ofTokens_eq_ok (by decide +kernel) (by decide +kernel)
  rcases hall _ hyields with hfailure | ⟨q, hq, htable⟩
  · cases hrows.symm.trans hfailure.rows
  · cases hparse.symm.trans hq
    exact ⟨htable, hrows⟩

end Engine
end CsvQuery
