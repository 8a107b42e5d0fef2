/-
What the engine can answer.

`World.Ends` lists the ends that a run can come to, one for each stage that can
fail and one for the answer, and `CanYield.ends` says that there are no others,
whenever the time of the run is up.  Most of the errors that the code could
raise are not among them: the names that are looked up after the columns have
been checked are found by every lookup, as all of them find the first column of
a name, and a pool with one worker is called in the one order that it takes.

So the errors of a run are of one of four kinds, and never of two at once.
-/
import CsvQuery.Proofs.Engine.AnyDeadline
import CsvQuery.Proofs.Engine.Answer
import CsvQuery.Proofs.Query.Refusals
import CsvQuery.Proofs.Search.Results
import Mathlib.Logic.ExistsUnique

namespace CsvQuery

namespace Engine

/-! ## The ends of a run -/

/-- The table that answers a query, made of these rows. -/
def tableOf (maxRows : Option Nat) (h : Header) (q : Query) (rows : List Row)
    (mark : Bool) : Outcome :=
  { selectedColumns := q.columnsOf h.names
    allColumns := h.names
    rows := (atMost maxRows (atMost q.constraints.limit rows)).map
      (Table.project h.names (q.columnsOf h.names))
    errors := []
    deadlineExceeded := mark }

/-- What a run of a query text can come to, stage by stage. -/
inductive World.Ends (w : World) (sql : String) : Outcome → Prop
  | refused {errors : List GrammarError} :
      Query.parse w.files sql = .error errors →
        Ends w sql (.failed (errors.map .grammar))
  | unread {q : Query} {error : SourceError} :
      Query.parse w.files sql = .ok q →
        (headerFor w.files w.engine.cache q).1 = .error error →
        Ends w sql (.failed [.source error])
  | lacking {q : Query} {h : Header} :
      Query.parse w.files sql = .ok q →
        (headerFor w.files w.engine.cache q).1 = .ok h →
        missingColumns h q ≠ [] →
        Ends w sql (.failed ((missingColumns h q).map .unknownColumn))
  /-- The header is kept from a time when the file could still be opened. -/
  | unopened {q : Query} {h : Header} {error : SourceError} :
      Query.parse w.files sql = .ok q →
        (headerFor w.files w.engine.cache q).1 = .ok h →
        missingColumns h q = [] →
        CsvSource.ofFile w.files q.path = .error error →
        Ends w sql (.failed [.source error])
  | faulty {q : Query} {h : Header} {error : QueryError} :
      Query.parse w.files sql = .ok q →
        (headerFor w.files w.engine.cache q).1 = .ok h →
        missingColumns h q = [] → error.OfItem →
        Ends w sql (.failed [.job searchWorker error])
  | answered {q : Query} {h : Header} {rows : List Row} {mark : Bool} :
      Query.parse w.files sql = .ok q →
        (headerFor w.files w.engine.cache q).1 = .ok h →
        missingColumns h q = [] →
        Ends w sql (tableOf w.engine.settings.maxRows h q rows mark)

section
variable {q : Query} {h : Header}

/-- A search whose columns are there finds rows or fails at an item. -/
theorem searchOf_cases (hmissing : missingColumns h q = [])
    (items : RowStream) :
    (∃ rows : List Row,
      (searchOf h q (.ofColumns h.names (q.columnsOf h.names))).found items
        = .ok ((atMost q.constraints.limit rows).map
          (Table.project h.names (q.columnsOf h.names)))) ∨
    ∃ e : QueryError, e.OfItem ∧
      (searchOf h q (.ofColumns h.names (q.columnsOf h.names))).found items
        = .error e := by
  refine Search.found_cases (Selection.project_ofColumns _ _) ?_ items
  intro order horder
  refine ⟨_, Search.sortPlaces_ofHeader rfl ?_⟩
  intro ref href
  refine missingColumns_eq_nil_iff.mp hmissing ref.column (List.mem_append_right _ ?_)
  rw [q.sortNames_eq horder]
  exact List.mem_map_of_mem href

theorem ofItems_of_missingColumns_eq_nil
    (hselect : q.select = [.all] ∨
      ∃ refs : List ColumnRef, q.select = refs.map .column)
    (hmissing : missingColumns h q = []) :
    Selection.ofItems h q.select
      = .ok (.ofColumns h.names (q.columnsOf h.names)) := by
  refine Selection.ofItems_eq hselect ?_
  intro name hname
  exact missingColumns_eq_nil_iff.mp hmissing name (List.mem_append_left _ hname)

/-- What a query comes to when its file cannot be opened. -/
theorem answerBy_of_unopened {files : Files} {pool : Pool}
    (settings : Settings)
    (hselect : q.select = [.all] ∨
      ∃ refs : List ColumnRef, q.select = refs.map .column)
    {error : SourceError}
    (hfile : CsvSource.ofFile files q.path = .error error)
    (hmissing : missingColumns h q = []) :
    answerBy pool files settings h q = .error [.source error] := by
  unfold answerBy
  rw [hmissing, ofItems_of_missingColumns_eq_nil hselect hmissing, hfile]
  rfl

/-- What a query comes to when its columns are there. -/
theorem answerBy_cases {files : Files} {timeout : Nat} {pool : Pool}
    (settings : Settings)
    (delivers : ∀ job, CanDeliver timeout job (pool job))
    (hselect : q.select = [.all] ∨
      ∃ refs : List ColumnRef, q.select = refs.map .column)
    {source : CsvSource} (hfile : CsvSource.ofFile files q.path = .ok source)
    (hmissing : missingColumns h q = []) :
    (∃ rows mark, answerBy pool files settings h q
      = .ok (tableOf settings.maxRows h q rows mark)) ∨
      ∃ e : QueryError, e.OfItem ∧
        answerBy pool files settings h q = .error [.job searchWorker e] := by
  unfold answerBy
  rw [hmissing, ofItems_of_missingColumns_eq_nil hselect hmissing, hfile]
  dsimp only [Except.mapError, bind, Except.bind]
  obtain ⟨result, hresults, hresult⟩ := (delivers _).searched
  rw [hresults]
  rcases hresult with rfl | ⟨budget, rfl⟩
  · -- The search was never taken up.
    refine .inl ⟨[], true, ?_⟩
    simp [tableOf, JobResult.abandoned, gatherRows, cutRows_eq, atMost_nil,
      Selection.ofColumns]
  · rw [Search.run_eq_found]
    generalize decide (Search.Stopped _ budget source.stream) = mark
    rcases searchOf_cases hmissing (atMost budget source.stream) with
      ⟨rows, hfound⟩ | ⟨e, he, hfound⟩
    · refine .inl ⟨rows, mark, ?_⟩
      rw [hfound]
      simp [Except.map, Search.delivered, tableOf, gatherRows, cutRows_eq, atMost_map,
        Selection.ofColumns]
    · refine .inr ⟨e, he, ?_⟩
      rw [hfound]
      rfl

end

section
variable {files : Files} {cache : HeaderCache} {q : Query}

theorem headerFor_eq_ok_iff {h : Header} : (headerFor files cache q).1 = .ok h ↔
    cache.header? q = some h ∨
    cache.header? q = none ∧ Header.read files q.path = .ok h := by
  unfold headerFor
  cases cache.header? q with
  | some kept => simp
  | none => cases Header.read files q.path <;> simp

end

/-- A run comes to no other end. -/
theorem World.CanYield.ends {w : World} {timeout : Nat} {sql : String}
    {o : Outcome} (h : w.CanYield timeout sql o) : w.Ends sql o := by
  obtain ⟨pool, delivers, rfl⟩ := h
  unfold outcomeBy
  cases hparse : Query.parse w.files sql with
  | error errors => exact .refused hparse
  | ok q =>
      dsimp only
      cases hheader : (headerFor w.files w.engine.cache q).1 with
      | error error => exact .unread hparse hheader
      | ok header =>
          dsimp only
          by_cases hmissing : missingColumns header q = []
          · have hselect := (spells_of_ofTokens hparse).select_cases
            cases hfile : CsvSource.ofFile w.files q.path with
            | error error =>
                rw [answerBy_of_unopened w.engine.settings hselect hfile hmissing]
                exact .unopened hparse hheader hmissing hfile
            | ok source =>
                rcases answerBy_cases w.engine.settings delivers hselect hfile hmissing with
                  ⟨rows, mark, hanswer⟩ | ⟨e, he, hanswer⟩
                · rw [hanswer]
                  exact .answered hparse hheader hmissing
                · rw [hanswer]
                  exact .faulty hparse hheader hmissing he
          · have hanswer : answerBy pool w.files w.engine.settings header q
                = .error ((missingColumns header q).map .unknownColumn) := by
              unfold answerBy
              split
              next hnil => exact absurd hnil hmissing
              next => rfl
            rw [hanswer]
            exact .lacking hparse hheader hmissing

/-! ## Kinds of failure -/

/-- Where a failed run comes to its end. -/
inductive FailureKind where
  /-- The text is no query. -/
  | grammar
  /-- The file cannot be opened, or has no header that can be read. -/
  | source
  /-- The header lacks columns. -/
  | columns
  /-- The search fails at an item. -/
  | job
deriving DecidableEq, Repr

/-- The kind of failure that an error is a part of; none for an error that
never leaves the engine. -/
def kindOf? : QueryError → Option FailureKind
  | .grammar _ => some .grammar
  | .source _ => some .source
  | .unknownColumn _ => some .columns
  | .job _ (.resolve _) => some .job
  | .job _ (.source _) => some .job
  | _ => none

/-- The errors of a failed run, by kind. -/
inductive World.FailsAs (w : World) (sql : String) :
    FailureKind → List QueryError → Prop
  | grammar {errors : List GrammarError} :
      Query.parse w.files sql = .error errors → errors ≠ [] →
        FailsAs w sql .grammar (errors.map .grammar)
  | source {q : Query} {error : SourceError} :
      Query.parse w.files sql = .ok q →
        (headerFor w.files w.engine.cache q).1 = .error error →
        FailsAs w sql .source [.source error]
  | unopened {q : Query} {h : Header} {error : SourceError} :
      Query.parse w.files sql = .ok q →
        (headerFor w.files w.engine.cache q).1 = .ok h →
        (∀ name ∈ q.selectedNames ++ q.sortNames, name ∈ h.names) →
        CsvSource.ofFile w.files q.path = .error error →
        FailsAs w sql .source [.source error]
  | columns {q : Query} {h : Header} {missing : List String} :
      Query.parse w.files sql = .ok q →
        (headerFor w.files w.engine.cache q).1 = .ok h →
        missing = q.selectedNames.filter (· ∉ h.names)
          ++ q.sortNames.filter (· ∉ h.names) →
        missing ≠ [] → FailsAs w sql .columns (missing.map .unknownColumn)
  | job {q : Query} {cause : QueryError} :
      Query.parse w.files sql = .ok q → cause.OfItem →
        FailsAs w sql .job [.job 1 cause]

section
variable {w : World} {sql : String}

theorem missingColumns_eq (h : Header) (q : Query) :
    missingColumns h q
      = q.selectedNames.filter (· ∉ h.names)
        ++ q.sortNames.filter (· ∉ h.names) := by
  have hmissing : ∀ name, (h.position? name).isNone = decide (name ∉ h.names) := by
    intro name
    rw [Bool.eq_iff_iff]
    simp [Header.position?]
  rw [missingColumns, List.filter_append]
  simp only [hmissing]

/-- All errors of a failed run are of its kind. -/
theorem World.FailsAs.kindOf?_eq {kind : FailureKind} {errors : List QueryError}
    (h : w.FailsAs sql kind errors) : ∀ e ∈ errors, kindOf? e = some kind := by
  cases h with
  | grammar => simp [kindOf?]
  | source => simp [kindOf?]
  | unopened => simp [kindOf?]
  | columns => simp [kindOf?]
  | job _ hcause => cases hcause <;> simp [kindOf?]

/-- A run that fails does so in one of four ways, and what is wrong inside
the engine is never among its errors. -/
theorem World.fails_in_one_of_four_ways {timeout : Nat} {o : Outcome}
    (yields : w.CanYield timeout sql o) (failed : o.errors ≠ []) :
    (∃! kind, w.FailsAs sql kind o.errors) ∧
    ∀ e ∈ o.errors, kindOf? e ≠ none := by
  have hfails : ∃ kind, w.FailsAs sql kind o.errors := by
    cases yields.ends with
    | refused hparse => exact ⟨_, .grammar hparse (errors_ne_nil_of_parse hparse)⟩
    | unread hparse hread => exact ⟨_, .source hparse hread⟩
    | @lacking q h hparse hheader hmissing =>
        exact ⟨_, .columns hparse hheader (missingColumns_eq h q) hmissing⟩
    | unopened hparse hheader hmissing hfile =>
        exact ⟨_, .unopened hparse hheader (missingColumns_eq_nil_iff.mp hmissing) hfile⟩
    | faulty hparse hheader hmissing hcause => exact ⟨_, .job hparse hcause⟩
    | answered hparse hheader hmissing => exact absurd rfl failed
  obtain ⟨kind, hkind⟩ := hfails
  refine ⟨⟨kind, hkind, ?_⟩, ?_⟩
  · intro kind' hkind'
    obtain ⟨e, he⟩ := List.exists_mem_of_ne_nil _ failed
    have hsame := (hkind'.kindOf?_eq e he).symm.trans (hkind.kindOf?_eq e he)
    exact Option.some.inj hsame
  · intro e he
    rw [hkind.kindOf?_eq e he]
    exact Option.some_ne_none kind

/-- Columns that `t.csv` lacks, a selected one and sort keys, of which one
twice. -/
theorem lacking_columns_are_one_failure :
    ∃! kind, (World.new .standard (World.filesWith [97, 10, 49, 10] [])).FailsAs
      "SELECT 'e.b','e.a','e.c' FROM path:t.csv AS e ORDER BY 'e.d', 'e.c'" kind
      [.unknownColumn "b", .unknownColumn "c", .unknownColumn "d",
        .unknownColumn "c"] := by
  have herrors : Outcome.errors
      ((World.new .standard (World.filesWith [97, 10, 49, 10] [])).outcome 1
        "SELECT 'e.b','e.a','e.c' FROM path:t.csv AS e ORDER BY 'e.d', 'e.c'")
      = [.unknownColumn "b", .unknownColumn "c", .unknownColumn "d", .unknownColumn "c"] := by
    decide +kernel
  have hways := World.fails_in_one_of_four_ways (World.canYield_outcome
    (.new .standard (World.filesWith [97, 10, 49, 10] [])) 1
    "SELECT 'e.b','e.a','e.c' FROM path:t.csv AS e ORDER BY 'e.d', 'e.c'")
  rw [herrors] at hways
  exact (hways (by simp)).1

/-- A file may be locked once its header is kept. -/
example :
    Outcome.errors
      (((World.new .standard (World.filesWith [97, 10, 49, 10] [])).live
        [.run 1 "SELECT * FROM path:t.csv AS e",
          .change fun _ => .ok (.locked .denied)]).outcome 1
        "SELECT * FROM path:t.csv AS e")
      = [.source (.io .denied)] := by
  decide +kernel

end
end Engine
end CsvQuery
