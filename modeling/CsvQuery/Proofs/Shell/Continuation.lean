/-
A query on several lines.

A text can be cut into lines at its separators, but for those within quotes;
each line but the last then ends in a backslash, with white space around it
(`Cut`).  Put together again, such lines are the text with a line end in each
of these places, behind the white space that the backslash had in front of
it.  If that is made of separators too, the text differs from the one on a
single line in its gaps only, so the session runs it as the same tokens.
-/
import CsvQuery.Proofs.Shell.Lines
import CsvQuery.Proofs.Token.Respacing

namespace CsvQuery

namespace Statement

open Token (IsBreak IsGap Respaced isSeparator marks)

/-- The ways of cutting a text into lines, `space` being the white space that
may stand in front of a backslash. -/
inductive Cut (space : Char → Bool) : List Char → List (List Char) → Prop
  | last (text : List Char) : Cut space text [text]
  | line (front before after : List Char) {c : Char} {rest : List Char}
      {lines : List (List Char)} : marks front % 2 = 0 → isSeparator c = true →
      (∀ b ∈ before, space b = true) → (∀ a ∈ after, Text.isBlank a = true) →
      Cut space rest lines →
      Cut space (front ++ c :: rest)
        ((front ++ before ++ '\\' :: after) :: lines)

section
variable {space : Char → Bool} {text : List Char} {lines : List (List Char)}

/-- All lines but the last are continued, and together they are the text with
other gaps. -/
theorem Cut.parts (cut : Cut isSeparator text lines)
    (ends : continued? text = none) :
    ∃ earlier last, lines = earlier ++ [last] ∧
      (∀ line ∈ earlier, (continued? line).isSome = true) ∧
      continued? last = none ∧
      Respaced text (soFar earlier ++ last) := by
  induction cut with
  | last text =>
      exact ⟨[], text, rfl, fun _ h => absurd h List.not_mem_nil, ends, .same text⟩
  | @line front before after c rest lines heven hc hbefore hafter _ ih =>
      have hends : continued? rest = none := by
        rw [← List.singleton_append, ← List.append_assoc] at ends
        exact continued?_append_eq_none _ ends
      obtain ⟨earlier, last, rfl, hearlier, hlast, hrespaced⟩ := ih hends
      have hline := continued?_eq hafter (front ++ before)
      refine ⟨_ :: earlier, last, rfl, ?_, hlast, ?_⟩
      · refine List.forall_mem_cons.mpr ⟨?_, hearlier⟩
        rw [hline, Option.isSome_some]
      · have hgap : IsBreak [c] :=
          ⟨List.forall_mem_singleton.mpr hc, List.cons_ne_nil c []⟩
        have hgap' : IsBreak (before ++ ['\n']) :=
          ⟨List.forall_mem_append.mpr ⟨hbefore, List.forall_mem_singleton.mpr rfl⟩, by simp⟩
        have hjoined := Respaced.gap heven hgap hgap' hrespaced
        rw [soFar_cons hline]
        simpa using hjoined

end

end Statement

theorem Token.Respaced.queryText {s t : String}
    (h : Respaced s.toList t.toList) :
    Respaced (Statement.queryText s).toList (Statement.queryText t).toList := by
  rw [Statement.toList_queryText, Statement.toList_queryText]
  exact h.trimChars.dropTail Token.uniform_semicolon

/-- Cut into lines, with nothing but separators in front of the backslashes,
a text that is no command is run as one query that has the tokens of the
text.  Nothing else is run for its lines, and no statement has begun behind
them. -/
theorem lines_run_one_query {text : String} {lines : List (List Char)}
    (notBlank : Text.trim text ≠ "")
    (query : Command.ofWords? (Text.words text) = none)
    (ends : Statement.continued? text.toList = none)
    (cut : Statement.Cut Token.isSeparator text.toList lines) :
    let whole := Statement.queryText (Statement.queryText text)
    ∃ statement sql, tokenize sql = tokenize whole ∧
      Token.Respaced (Text.trim text).toList statement.toList ∧
      ∀ garbled d more (s : Session), s.pending = [] → s.closed = false →
        s.run garbled d (text :: more) = s.answering garbled d (Text.trim text) whole more ∧
        s.run garbled d (lines.map String.ofList ++ more)
          = s.answering garbled d statement sql more := by
  intro whole
  obtain ⟨earlier, last, rfl, hearlier, hlast, hrespaced⟩ := cut.parts ends
  let joined := String.ofList (Statement.soFar earlier ++ last)
  have hjoined : Token.Respaced text.toList joined.toList := by
    rw [String.toList_ofList]
    exact hrespaced
  have hwords : Text.words joined = Text.words text := by
    rw [Text.words, Text.words, hjoined.wordsFrom_eq]
  have hrest : Text.trimChars (Statement.soFar earlier ++ last) ≠ [] := by
    rw [Ne, Text.trimChars_eq_nil_iff, ← hrespaced.all_iff Token.uniform_isBlank,
      ← Text.trimChars_eq_nil_iff]
    intro hnil
    exact notBlank (by rw [Text.trim, hnil, String.ofList_nil])
  refine ⟨Text.trim joined, Statement.queryText (Statement.queryText joined), ?_, ?_, ?_⟩
  · exact tokenize_eq_iff.mpr hjoined.queryText.queryText.scan_eq.symm
  · rw [Text.trim, Text.trim, String.toList_ofList, String.toList_ofList]
    exact hjoined.trimChars
  · intro garbled d more s fresh stays
    exact ⟨s.run_query garbled d more fresh stays notBlank query ends,
      s.run_lines garbled d _ _ more fresh stays hearlier hlast hrest (hwords ▸ query)⟩

/-- A line of a query can look like a command. -/
theorem query_with_exit_on_its_own_line :
    Text.trim "SELECT exit FROM path:t.csv" ≠ "" ∧
      Command.ofWords? (Text.words "SELECT exit FROM path:t.csv") = none ∧
      Statement.continued? "SELECT exit FROM path:t.csv".toList = none ∧
      Statement.Cut Token.isSeparator "SELECT exit FROM path:t.csv".toList
        ["SELECT\\".toList, "exit \\ ".toList, "FROM path:t.csv".toList] ∧
      ∃ statement sql, tokenize sql = ["SELECT", "exit", "FROM", "path:t.csv"] ∧
        ∀ garbled d more (s : Session), s.pending = [] → s.closed = false →
          s.run garbled d
            ("SELECT\\" :: "exit \\ " :: "FROM path:t.csv" :: more)
            = s.answering garbled d statement sql more := by
  have notBlank : Text.trim "SELECT exit FROM path:t.csv" ≠ "" := by decide
  have query : Command.ofWords? (Text.words "SELECT exit FROM path:t.csv") = none := by
    decide +kernel
  have ends : Statement.continued? "SELECT exit FROM path:t.csv".toList = none := by
    decide
  have cut : Statement.Cut Token.isSeparator "SELECT exit FROM path:t.csv".toList
      ["SELECT\\".toList, "exit \\ ".toList, "FROM path:t.csv".toList] :=
    .line "SELECT".toList [] [] (c := ' ') rfl rfl (List.forall_mem_nil _) (List.forall_mem_nil _)
      (.line "exit".toList [' '] [' '] (c := ' ') rfl rfl (List.forall_mem_singleton.mpr rfl)
        (List.forall_mem_singleton.mpr rfl) (.last "FROM path:t.csv".toList))
  refine ⟨notBlank, query, ends, cut, ?_⟩
  obtain ⟨statement, sql, htokens, -, hrun⟩ :=
    lines_run_one_query notBlank query ends cut
  refine ⟨statement, sql, ?_, ?_⟩
  · rw [htokens]
    decide +kernel
  · intro garbled d more s fresh stays
    exact (hrun garbled d more s fresh stays).2

/-- A blank in front of a backslash that is no separator stays in the query. -/
theorem blank_before_backslash_in_table_name :
    Text.trim "SELECT 'e.a' FROM path:t.csv AS e LIMIT 1" ≠ "" ∧
      Command.ofWords? (Text.words "SELECT 'e.a' FROM path:t.csv AS e LIMIT 1")
        = none ∧
      Statement.continued? "SELECT 'e.a' FROM path:t.csv AS e LIMIT 1".toList
        = none ∧
      Statement.Cut Text.isBlank
        "SELECT 'e.a' FROM path:t.csv AS e LIMIT 1".toList
        ["SELECT 'e.a' FROM path:t.csv AS e\u00a0\\".toList, "LIMIT 1".toList] ∧
      tokenize (Statement.queryText
          (Statement.queryText "SELECT 'e.a' FROM path:t.csv AS e LIMIT 1"))
        = ["SELECT", "'e.a'", "FROM", "path:t.csv", "AS", "e", "LIMIT", "1"] ∧
      ∃ statement sql,
        tokenize sql
          = ["SELECT", "'e.a'", "FROM", "path:t.csv", "AS", "e\u00a0",
            "LIMIT", "1"] ∧
        ∀ garbled d more (s : Session), s.pending = [] → s.closed = false →
          s.run garbled d
              ("SELECT 'e.a' FROM path:t.csv AS e\u00a0\\" :: "LIMIT 1" :: more)
            = s.answering garbled d statement sql more := by
  have cut : Statement.Cut Text.isBlank "SELECT 'e.a' FROM path:t.csv AS e LIMIT 1".toList
      ["SELECT 'e.a' FROM path:t.csv AS e\u00a0\\".toList, "LIMIT 1".toList] :=
    .line "SELECT 'e.a' FROM path:t.csv AS e".toList ['\u00a0'] [] (c := ' ') rfl rfl
      (List.forall_mem_singleton.mpr rfl) (List.forall_mem_nil _) (.last "LIMIT 1".toList)
  refine ⟨by decide, by decide +kernel, by decide, cut, by decide +kernel, ?_⟩
  refine ⟨_, _, ?_, fun garbled d more s fresh stays =>
    s.run_lines garbled d ["SELECT 'e.a' FROM path:t.csv AS e\u00a0\\".toList] "LIMIT 1".toList
      more fresh stays ?_ ?_ ?_ ?_⟩
  all_goals decide +kernel

end CsvQuery
