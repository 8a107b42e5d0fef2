/-
The queries that are accepted are those of the grammar.

Read forwards and backwards the clauses of a query are the parts of `Spells`,
one equivalence after another.  The only thing the grammar does not say is that
every column is written with the name of the query's own table.
-/
import CsvQuery.Proofs.Query.WhereClause
import CsvQuery.Proofs.Query.Constraints
import CsvQuery.Proofs.Query.Refusals

namespace CsvQuery

open Grammar Clause

/-! ## Whole queries -/

theorem ofTokens_eq_ok_iff_reads {files : Files} {tokens : List String}
    {q : Query} :
    Query.ofTokens files tokens = .ok q ↔
      ∃ rest, (queryClause files).Reads tokens q rest := by
  unfold Query.ofTokens Reads
  rcases queryClause files tokens with ⟨value, errors, rest⟩
  cases value with
  | none => simp
  | some found =>
      cases errors with
      | nil => simp
      | cons error errors => simp

theorem ofTokens_eq_error {files : Files} {tokens : List String}
    {errors : List GrammarError} (hne : errors ≠ [])
    (h : (queryClause files tokens).errors = errors) :
    Query.ofTokens files tokens = .error errors :=
  ofTokens_eq_error_iff.mpr ⟨h, hne⟩

theorem ofTokens_eq_ok {files : Files} {tokens : List String} {q : Query}
    (hvalue : (queryClause files tokens).value = some q)
    (herrors : (queryClause files tokens).errors = []) :
    Query.ofTokens files tokens = .ok q := by
  simp [Query.ofTokens, hvalue, herrors]

/-- The references of a query are of its table when those of its clauses
are. -/
theorem oneTable_iff {select : List SelectItem} {path : Path} {table : String}
    {conditions : List Condition} {constraints : Constraints} :
    Query.OneTable { select, path, table, conditions, constraints } ↔
      (∀ ref ∈ select.filterMap SelectItem.ref?, ref.table = table) ∧
        (∀ c ∈ conditions, c.ref.table = table) ∧
          ∀ ref ∈ constraints.refs, ref.table = table := by
  simp only [Query.OneTable, Query.refs, List.forall_mem_append, List.forall_mem_map,
    and_assoc]

theorem noComma_of_sameWord {token word : String} {tokens : List String}
    (h : Text.sameWord token word) (hword : ¬ Text.sameWord "," word) :
    NoComma (token :: tokens) := by
  rintro ⟨⟩
  exact hword h

/-- All tokens of a query are read. -/
theorem reads_query_iff {files : Files} {tokens rest : List String}
    {q : Query} :
    (queryClause files).Reads tokens q rest ↔
      rest = [] ∧ Spells files tokens q ∧ q.OneTable := by
  unfold queryClause
  constructor
  · intro h
    obtain ⟨_, _, hselect, h₁⟩ := reads_bind_iff.mp h
    obtain ⟨selectWord, rfl, hselectWord⟩ := reads_keyword_iff.mp hselect
    obtain ⟨select, _, hitems, h₂⟩ := reads_bind_iff.mp h₁
    obtain ⟨list, rfl, hlist, -⟩ := reads_selectList_iff.mp hitems
    obtain ⟨_, _, hfrom, h₃⟩ := reads_bind_iff.mp h₂
    obtain ⟨fromWord, rfl, hfromWord⟩ := reads_keyword_iff.mp hfrom
    obtain ⟨path, _, hpath, h₄⟩ := reads_bind_iff.mp h₃
    obtain ⟨file, rfl, hfile, hcsv⟩ := reads_filePath_iff.mp hpath
    obtain ⟨_, _, has, h₅⟩ := reads_bind_iff.mp h₄
    obtain ⟨asWord, rfl, hasWord⟩ := reads_keyword_iff.mp has
    obtain ⟨_, _, hname, h₆⟩ := reads_bind_iff.mp h₅
    obtain ⟨table, rfl, rfl, htable⟩ := reads_tableName_iff.mp hname
    obtain ⟨_, _, hreport, h₇⟩ := reads_bind_iff.mp h₆
    obtain ⟨hmismatches, rfl⟩ := reads_report_iff.mp hreport
    obtain ⟨conditions, _, hconditions, h₈⟩ := reads_bind_iff.mp h₇
    obtain ⟨constraints, _, hconstraints, h₉⟩ := reads_bind_iff.mp h₈
    obtain ⟨rfl, rfl⟩ := reads_pure_iff.mp h₉
    obtain ⟨rfl, own, htail, -, hsorted, rfl⟩ := reads_constraints_iff.mp hconstraints
    obtain ⟨wheres, rfl, hwhere, hcompared⟩ :=
      (reads_whereClause_iff htail.follows).mp hconditions
    have hhead := Head.intro ((sameWord_congr_right (by decide)).mp hselectWord) hlist
      ((sameWord_congr_right (by decide)).mp hfromWord) hfile hcsv
      ((sameWord_congr_right (by decide)).mp hasWord) htable
    rw [Constraints.merge_empty]
    refine ⟨rfl, ?_, oneTable_iff.mpr
      ⟨selectMismatches_eq_nil_iff.mp hmismatches, hcompared, hsorted⟩⟩
    simpa using Spells.intro hhead hwhere htail
  · rintro ⟨rfl, ⟨hhead, hwhere, htail⟩, htables⟩
    obtain ⟨hselected, hcompared, hsorted⟩ := oneTable_iff.mp htables
    obtain ⟨hselectWord, hlist, hfromWord, hfile, hcsv, hasWord, htable⟩ := hhead
    simp only [List.cons_append, List.nil_append, List.append_assoc]
    refine reads_bind_iff.mpr ⟨(), _, reads_keyword_iff.mpr
      ⟨_, rfl, (sameWord_congr_right (by decide)).mp hselectWord⟩, ?_⟩
    refine reads_bind_iff.mpr ⟨_, _, reads_selectList_iff.mpr
      ⟨_, rfl, hlist, noComma_of_sameWord hfromWord (by decide)⟩, ?_⟩
    refine reads_bind_iff.mpr ⟨(), _, reads_keyword_iff.mpr
      ⟨_, rfl, (sameWord_congr_right (by decide)).mp hfromWord⟩, ?_⟩
    refine reads_bind_iff.mpr ⟨_, _, reads_filePath_iff.mpr ⟨_, rfl, hfile, hcsv⟩, ?_⟩
    refine reads_bind_iff.mpr ⟨(), _, reads_keyword_iff.mpr
      ⟨_, rfl, (sameWord_congr_right (by decide)).mp hasWord⟩, ?_⟩
    refine reads_bind_iff.mpr ⟨_, _, reads_tableName_iff.mpr ⟨_, rfl, rfl, htable⟩, ?_⟩
    refine reads_bind_iff.mpr
      ⟨(), _, reads_report_iff.mpr ⟨selectMismatches_eq_nil_iff.mpr hselected, rfl⟩, ?_⟩
    refine reads_bind_iff.mpr
      ⟨_, _, (reads_whereClause_iff htail.follows).mpr ⟨_, rfl, hwhere, hcompared⟩, ?_⟩
    refine reads_bind_iff.mpr ⟨_, [], reads_constraints_iff.mpr
      ⟨rfl, _, htail, Constraints.apart_empty _, hsorted, rfl⟩, ?_⟩
    exact reads_pure_iff.mpr ⟨by simp, rfl⟩

/-- What is accepted is in the grammar. -/
theorem spells_of_ofTokens {files : Files} {tokens : List String} {q : Query}
    (h : Query.ofTokens files tokens = .ok q) : Spells files tokens q := by
  obtain ⟨rest, hreads⟩ := ofTokens_eq_ok_iff_reads.mp h
  obtain ⟨-, hspells, -⟩ := reads_query_iff.mp hreads
  exact hspells

theorem oneTable_of_ofTokens {files : Files} {tokens : List String} {q : Query}
    (h : Query.ofTokens files tokens = .ok q) : q.OneTable := by
  obtain ⟨rest, hreads⟩ := ofTokens_eq_ok_iff_reads.mp h
  obtain ⟨-, -, htable⟩ := reads_query_iff.mp hreads
  exact htable

/-- The path of a query that was read names a file, which need not be one that
can be read. -/
theorem exists_file_of_parse {files : Files} {sql : String} {q : Query}
    (h : Query.parse files sql = .ok q) :
    ∃ e, files q.path = .ok e ∧ e.isFile := by
  have hspells := spells_of_ofTokens h
  generalize tokenize sql = tokens at hspells
  obtain ⟨⟨-, -, -, -, hcsv, -, -⟩, -, -⟩ := hspells
  exact hcsv.1

/-- A list of tokens is accepted as a query exactly if it spells the query and
all columns are of the query's table. -/
theorem ofTokens_accepts_exactly_the_grammar (files : Files)
    (tokens : List String) (q : Query) :
    Query.ofTokens files tokens = .ok q ↔
      Spells files tokens q ∧ q.OneTable := by
  constructor
  · intro h
    exact ⟨spells_of_ofTokens h, oneTable_of_ofTokens h⟩
  · rintro ⟨hspells, htable⟩
    exact ofTokens_eq_ok_iff_reads.mpr ⟨[], reads_query_iff.mpr ⟨rfl, hspells, htable⟩⟩

/-- The grammar alone does not do: here the column is one of another table. -/
theorem column_of_other_table_is_refused :
    Spells (fun _ => .ok (.file [])) ["SELECT", "'z.a'", "FROM",
      "path:t.csv", "AS", "e"]
        { select := [.column ⟨"z", "a"⟩], path := ⟨"t.csv"⟩, table := "e", conditions := [],
          constraints := {} } ∧
      Query.ofTokens (fun _ => .ok (.file []))
          ["SELECT", "'z.a'", "FROM", "path:t.csv", "AS", "e"]
        = .error [.tableMismatch "e" ⟨"z", "a"⟩] := by
  have href : IsRef "'z.a'" ⟨"z", "a"⟩ := ⟨by decide, by decide, by decide⟩
  have hfile : IsFile "t.csv" ⟨"t.csv"⟩ :=
    .bare (by decide) (Token.unquote?_eq_none_iff.mp (by decide))
  have hhead : Head (fun _ => .ok (.file []))
      ("SELECT" :: ["'z.a'"] ++ ["FROM", "path:" ++ "t.csv", "AS", "e"])
      [.column ⟨"z", "a"⟩] ⟨"t.csv"⟩ "e" :=
    .intro (by decide) (.columns (.one href) (by decide)) (by decide) hfile
      ⟨⟨.file [], rfl, rfl⟩, "csv".toList, by decide, by decide⟩ (by decide) ⟨by decide, by decide⟩
  constructor
  · exact .intro hhead .absent .none
  · exact ofTokens_eq_error (by decide) (by decide +kernel)

end CsvQuery
