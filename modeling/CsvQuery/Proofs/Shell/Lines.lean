/-
The lines of a statement in a session.

A line that ends in a backslash waits for the next one, and the session does
nothing else about it (`run_continued`).  So the lines of a statement come to
the text that they make up together, whatever each of them looks like, and a
text that is no command is a query: `answering` is what a session does about
it, from the one run of its engine to the lines behind the statement.
-/
import CsvQuery.Proofs.Text.Trimming
import CsvQuery.Shell.Session

namespace CsvQuery

namespace Statement

/-- What lines come to that are all continued. -/
def soFar (lines : List (List Char)) : List Char :=
  lines.flatMap fun line => (continued? line).getD []

theorem soFar_cons {line part : List Char} (h : continued? line = some part)
    (lines : List (List Char)) :
    soFar (line :: lines) = part ++ soFar lines := by
  simp [soFar, h]

/-- A continued line is a text, a backslash and blanks. -/
theorem continued?_eq {after : List Char}
    (h : ∀ c ∈ after, Text.isBlank c = true) (text : List Char) :
    continued? (text ++ '\\' :: after) = some (text ++ ['\n']) := by
  have hafter : ∀ c ∈ after.reverse, Text.isBlank c = true :=
    fun c hc => h c (List.mem_reverse.mp hc)
  have hback : Text.isBlank '\\' = false := by decide
  simp [continued?, List.dropWhile_append_of_pos hafter, hback]

/-- Only the end of a text decides whether it is continued. -/
theorem continued?_append_eq_none {cs : List Char} (front : List Char)
    (h : continued? (front ++ cs) = none) : continued? cs = none := by
  unfold continued? at h ⊢
  cases hrest : cs.reverse.dropWhile Text.isBlank with
  | nil => rfl
  | cons c rest =>
      rw [List.reverse_append, List.dropWhile_append, hrest, if_neg (by simp),
        List.cons_append] at h
      by_cases hback : c = '\\'
      · subst hback
        cases h
      · split
        next heq => exact absurd (List.cons.inj heq).1 hback
        · rfl

theorem toList_queryText (s : String) :
    (queryText s).toList
      = Text.dropTail (· == ';') (Text.trimChars s.toList) := by
  simp [queryText, Text.dropSemicolons, Text.trim]

theorem queryText_trim (s : String) :
    queryText (Text.trim s) = queryText s := by
  rw [queryText, Text.trim_idempotent, queryText]

end Statement

/-- The engine sees nothing of a query text but its tokens. -/
theorem Engine.run_eq_of_tokens {sql sql' : String}
    (h : tokenize sql = tokenize sql') (files : Files) (e : Engine) :
    e.run files sql = e.run files sql' := by
  rw [run, runWithin, Query.parse, h, ← Query.parse, ← runWithin, ← run]

namespace Session

/-- What a session comes to that keeps a statement, answers it by running a
query text, and goes on with the lines behind it. -/
def answering (garbled : Bool) (d : Disk) (s : Session) (statement sql : String)
    (more : List String) : Session × Disk × List Report :=
  let (outcome, engine) := s.engine.run d.view sql
  let (last, d, reports) :=
    run garbled d { s with engine, pending := [], history := s.history.add statement } more
  (last, d, outcome.reports s.config.format s.style ++ .out "" :: reports)

section
variable {s : Session} (garbled : Bool) (d : Disk)

theorem answering_pending (pending : List Char) (statement sql : String)
    (more : List String) :
    { s with pending }.answering garbled d statement sql more
      = s.answering garbled d statement sql more := rfl

theorem answering_eq_of_tokens {sql sql' : String}
    (h : tokenize sql = tokenize sql') (statement : String)
    (more : List String) :
    s.answering garbled d statement sql more
      = s.answering garbled d statement sql' more := by
  rw [answering, Engine.run_eq_of_tokens h, ← answering]

theorem run_continued {line : String} {part : List Char} (more : List String)
    (stays : s.closed = false)
    (h : Statement.continued? line.toList = some part) :
    s.run garbled d (line :: more)
      = { s with pending := s.pending ++ part }.run garbled d more := by
  simp [run, feed, Statement.join, h, settle, stays]

theorem run_soFar {lines : List (List Char)} (more : List String)
    (continued : ∀ line ∈ lines, (Statement.continued? line).isSome = true) :
    ∀ s : Session, s.closed = false →
      s.run garbled d (lines.map String.ofList ++ more)
        = { s with pending := s.pending ++ Statement.soFar lines }.run
          garbled d more := by
  induction lines with
  | nil =>
      intro s _
      simp [Statement.soFar]
  | cons line lines ih =>
      intro s stays
      obtain ⟨hline, hlines⟩ := List.forall_mem_cons.mp continued
      obtain ⟨part, hpart⟩ := Option.isSome_iff_exists.mp hline
      have hfirst : Statement.continued? (String.ofList line).toList = some part := by
        rw [String.toList_ofList]
        exact hpart
      rw [List.map_cons, List.cons_append, run_continued garbled d _ stays hfirst,
        ih hlines { s with pending := s.pending ++ part } stays]
      rw [Statement.soFar_cons hpart, List.append_assoc]

/-- A statement that is no command is a query. -/
theorem run_complete {line : String} {statement : List Char}
    (more : List String) (stays : s.closed = false)
    (complete : Statement.join s.pending line.toList = .complete statement)
    (notBlank : statement ≠ [])
    (query : Command.ofWords? (Text.words (String.ofList statement)) = none) :
    s.run garbled d (line :: more)
      = s.answering garbled d (String.ofList statement)
        (Statement.queryText (Statement.queryText (String.ofList statement)))
        more := by
  have hcommand : Command.ofStatement (String.ofList statement)
      = .query (Statement.queryText (String.ofList statement)) := by
    rw [Command.ofStatement, query, Option.getD_none]
  have hfeed (files : Files) : s.feed files line
      = (let s' : Session :=
          { s with pending := [], history := s.history.add (String.ofList statement) }
        let answer := s'.query files (Statement.queryText (String.ofList statement))
        (answer.1, some (.prints answer.2))) := by
    obtain ⟨c, cs, rfl⟩ := List.exists_cons_of_ne_nil notBlank
    simp only [feed, complete, hcommand, execute]
  simp [run, hfeed, Session.query, settle, closing, answering, style, stays]

/-- What a session does about lines that are continued and the last line of a
statement. -/
theorem run_lines (lines : List (List Char)) (last : List Char)
    (more : List String) (fresh : s.pending = []) (stays : s.closed = false)
    (continued : ∀ line ∈ lines, (Statement.continued? line).isSome = true)
    (ends : Statement.continued? last = none)
    (notBlank : Text.trimChars (Statement.soFar lines ++ last) ≠ [])
    (query : Command.ofWords?
      (Text.words (String.ofList (Statement.soFar lines ++ last))) = none) :
    let text := String.ofList (Statement.soFar lines ++ last)
    s.run garbled d ((lines ++ [last]).map String.ofList ++ more)
      = s.answering garbled d (Text.trim text)
          (Statement.queryText (Statement.queryText text)) more := by
  intro text
  have htrim : String.ofList (Text.trimChars (Statement.soFar lines ++ last)) = Text.trim text := by
    rw [Text.trim, String.toList_ofList]
  have hcomplete : Statement.join (s.pending ++ Statement.soFar lines) (String.ofList last).toList
      = .complete (Text.trimChars (Statement.soFar lines ++ last)) := by
    simp [Statement.join, ends, fresh]
  have hquery : Command.ofWords? (Text.words (Text.trim text)) = none := by
    rw [Text.words_trim]
    exact query
  have hlast := run_complete garbled d more
    (s := { s with pending := s.pending ++ Statement.soFar lines }) stays hcomplete notBlank
    (htrim ▸ hquery)
  rw [htrim, Statement.queryText_trim, answering_pending] at hlast
  rw [List.map_append, List.append_assoc, run_soFar garbled d _ continued s stays]
  exact hlast

/-- A line that is a query is answered and kept, and no statement has begun
behind it. -/
theorem run_query {text : String} (more : List String)
    (fresh : s.pending = []) (stays : s.closed = false)
    (notBlank : Text.trim text ≠ "")
    (query : Command.ofWords? (Text.words text) = none)
    (ends : Statement.continued? text.toList = none) :
    s.run garbled d (text :: more) = s.answering garbled d (Text.trim text)
      (Statement.queryText (Statement.queryText text)) more := by
  have hline := run_lines garbled d [] text.toList more fresh stays
    (fun _ hline => absurd hline List.not_mem_nil) ends
  simp only [Statement.soFar, List.flatMap_nil, List.nil_append, List.map_cons, List.map_nil,
    List.cons_append, String.ofList_toList] at hline
  refine hline ?_ query
  intro hnil
  exact notBlank (by rw [Text.trim, hnil, String.ofList_nil])

end

end Session
end CsvQuery
