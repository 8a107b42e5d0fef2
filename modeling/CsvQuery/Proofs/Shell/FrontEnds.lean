/-
One statement in both front ends.

The query of the command line loses the blanks around it and then the
semicolons at its end.  A line of the shell does so twice, for the shell
trims a line before it looks for a command in it.  The second time there is
something left to drop where blanks stand in front of the semicolons; the
tokens do not change if those blanks are separators outside of quotes and no
other semicolon stands in front of them (`Settled`).
-/
import CsvQuery.CommandLine.Program
import CsvQuery.Proofs.Shell.Lines
import CsvQuery.Proofs.Token.Endings

namespace CsvQuery

namespace Statement

/-- What is left of a query text where it is taken for a statement again. -/
def retrimmed (cs : List Char) : List Char :=
  Text.dropTail (· == ';') (Text.dropTail Text.isBlank cs)

/-- The second time there are no blanks in front. -/
theorem toList_queryText_queryText (s : String) :
    (queryText (queryText s)).toList = retrimmed (queryText s).toList := by
  have hfront : (queryText s).toList.dropWhile Text.isBlank = (queryText s).toList := by
    rw [toList_queryText]
    exact Text.dropWhile_dropTail (Text.dropWhile_trimChars _) _
  rw [toList_queryText, Text.trimChars, hfront, retrimmed]

/-- No blank is at the end of the text; or separators outside of quotes are,
and no semicolon in front of them. -/
inductive Settled : List Char → Prop
  | bare {cs : List Char} : (∀ c ∈ cs.getLast?, Text.isBlank c = false) →
      Settled cs
  | spaced {cs gap : List Char} :
      (∀ c ∈ cs.getLast?, Text.isBlank c = false ∧ c ≠ ';') →
      Token.marks cs % 2 = 0 → Token.IsGap gap → Settled (cs ++ gap)

section
variable {cs : List Char}

theorem Settled.scan_retrimmed (h : Settled cs)
    (hcs : Text.dropTail (· == ';') cs = cs) :
    Token.scan false [] cs = Token.scan false [] (retrimmed cs) := by
  cases h with
  | bare hlast => rw [retrimmed, Text.dropTail_eq_self_iff.mpr hlast, hcs]
  | @spaced cs gap hlast heven hgap =>
      have hblank : Text.dropTail Text.isBlank cs = cs :=
        Text.dropTail_eq_self_iff.mpr fun c hc => (hlast c hc).1
      have hsemicolon : Text.dropTail (· == ';') cs = cs :=
        Text.dropTail_eq_self_iff.mpr fun c hc => beq_false_of_ne (hlast c hc).2
      rw [retrimmed, Text.dropTail_append_of_all hgap.isBlank, hblank, hsemicolon]
      exact Token.scan_append_eq_iff.mpr (.inr ⟨heven, hgap⟩)

/-- If blanks are dropped they are separators, and then no semicolons are
dropped in front of them, for these would be in the tokens. -/
theorem settled_of_scan_retrimmed
    (h : Token.scan false [] cs = Token.scan false [] (retrimmed cs)) :
    Settled cs := by
  obtain ⟨blanks, hblanks, -⟩ := Text.exists_tail Text.isBlank cs
  obtain ⟨semicolons, hsemicolons, hall⟩ :=
    Text.exists_tail (· == ';') (Text.dropTail Text.isBlank cs)
  have hparts : cs = retrimmed cs ++ (semicolons ++ blanks) := by
    rw [← List.append_assoc, retrimmed, ← hsemicolons, ← hblanks]
  nth_rewrite 1 [hparts] at h
  rcases Token.scan_append_eq_iff.mp h with hnil | ⟨heven, hgap⟩
  · obtain ⟨-, rfl⟩ := List.append_eq_nil_iff.mp hnil
    rw [List.append_nil] at hblanks
    exact .bare (Text.dropTail_eq_self_iff.mp hblanks.symm)
  · obtain rfl : semicolons = [] := by
      refine List.eq_nil_iff_forall_not_mem.mpr ?_
      intro c hc
      obtain rfl := beq_iff_eq.mp (hall c hc)
      cases hgap _ (List.mem_append_left blanks hc)
    rw [List.nil_append] at hparts hgap
    rw [List.append_nil, ← retrimmed] at hsemicolons
    rw [hparts]
    refine .spaced ?_ heven hgap
    intro c hc
    refine ⟨?_, ne_of_beq_false (Text.getLast?_dropTail c hc)⟩
    rw [← hsemicolons] at hc
    exact Text.getLast?_dropTail c hc

end

theorem tokenize_queryText_iff (s : String) :
    tokenize (queryText s) = tokenize (queryText (queryText s))
      ↔ Settled (queryText s).toList := by
  have hkept : Text.dropTail (· == ';') (queryText s).toList = (queryText s).toList := by
    rw [toList_queryText, Text.dropTail_idempotent]
  rw [tokenize_eq_iff, toList_queryText_queryText]
  constructor
  · intro h
    exact settled_of_scan_retrimmed h
  · intro h
    exact h.scan_retrimmed hkept

end Statement

/-- A text that is no command is run as `queryText` of it where it is the
query of the command line, and as `queryText` of that where it is a line of
the shell.  Both are the same tokens exactly if the first of them is
`Settled`. -/
theorem frontEnds_agree_iff {text : String} (notBlank : Text.trim text ≠ "")
    (query : Command.ofWords? (Text.words text) = none)
    (ends : Statement.continued? text.toList = none) :
    let once := Statement.queryText text
    let twice := Statement.queryText once
    (∀ files config style,
      let outcome := ((Engine.new config.settings).run files once).1
      Program.answer files text config style
        = ⟨if outcome.isOk then 0 else 1, outcome.reports config.format style⟩) ∧
    (∀ garbled d more (s : Session), s.pending = [] → s.closed = false →
      s.run garbled d (text :: more) = s.answering garbled d (Text.trim text) twice more) ∧
    (tokenize once = tokenize twice ↔ Statement.Settled once.toList) := by
  intro once twice
  refine ⟨?_, ?_, Statement.tokenize_queryText_iff text⟩
  · intro files config style
    rfl
  · intro garbled d more s fresh stays
    exact s.run_query garbled d more fresh stays notBlank query ends

/-- A gap in front of the last semicolon is of no account. -/
theorem gap_before_semicolon_agrees :
    Text.trim "SELECT 'e.a' FROM path:t.csv AS e ;" ≠ "" ∧
      Command.ofWords? (Text.words "SELECT 'e.a' FROM path:t.csv AS e ;")
        = none ∧
      Statement.continued? "SELECT 'e.a' FROM path:t.csv AS e ;".toList = none ∧
      tokenize (Statement.queryText "SELECT 'e.a' FROM path:t.csv AS e ;")
        = tokenize (Statement.queryText
            (Statement.queryText "SELECT 'e.a' FROM path:t.csv AS e ;")) := by
  have notBlank : Text.trim "SELECT 'e.a' FROM path:t.csv AS e ;" ≠ "" := by decide
  have query : Command.ofWords? (Text.words "SELECT 'e.a' FROM path:t.csv AS e ;") = none := by
    decide +kernel
  have ends : Statement.continued? "SELECT 'e.a' FROM path:t.csv AS e ;".toList = none := by decide
  refine ⟨notBlank, query, ends, (frontEnds_agree_iff notBlank query ends).2.2.mpr ?_⟩
  have hparts : (Statement.queryText "SELECT 'e.a' FROM path:t.csv AS e ;").toList
      = "SELECT 'e.a' FROM path:t.csv AS e".toList ++ [' '] := by decide
  rw [hparts]
  refine .spaced ?_ (by decide) (List.forall_mem_singleton.mpr rfl)
  intro c hc
  obtain rfl : 'e' = c := Option.some.inj hc
  decide

/-- In front of a gap a semicolon stays on the command line. -/
theorem semicolon_before_gap_differs :
    Text.trim "SELECT 'e.a' FROM path:t.csv AS e; ;" ≠ "" ∧
      Command.ofWords? (Text.words "SELECT 'e.a' FROM path:t.csv AS e; ;")
        = none ∧
      Statement.continued? "SELECT 'e.a' FROM path:t.csv AS e; ;".toList
        = none ∧
      tokenize (Statement.queryText "SELECT 'e.a' FROM path:t.csv AS e; ;")
        = ["SELECT", "'e.a'", "FROM", "path:t.csv", "AS", "e;"] ∧
      tokenize
        (Statement.queryText
          (Statement.queryText "SELECT 'e.a' FROM path:t.csv AS e; ;"))
        = ["SELECT", "'e.a'", "FROM", "path:t.csv", "AS", "e"] := by
  refine ⟨?_, ?_, ?_, ?_, ?_⟩
  all_goals decide +kernel

/-- A settled text is answered by a new session as by the program that has it
as its query. -/
theorem Session.new_answers_settled {text : String}
    (notBlank : Text.trim text ≠ "")
    (query : Command.ofWords? (Text.words text) = none)
    (ends : Statement.continued? text.toList = none)
    (settled : Statement.Settled (Statement.queryText text).toList)
    (config : Config) (paintable : Bool) (home : String) (history : History)
    (garbled : Bool) (d : Disk) :
    let session := Session.new config paintable home history
    (session.run garbled d [text]).2.2
      = (Program.answer d.view text config session.style).reports
          ++ [.out "", Session.atEnd garbled] := by
  intro session
  have htokens := (Statement.tokenize_queryText_iff text).mpr settled
  have hline := session.run_query garbled d [] rfl rfl notBlank query ends
  rw [← answering_eq_of_tokens garbled d htokens] at hline
  rw [hline]
  simp only [answering, run, Program.answer]
  rfl

end CsvQuery
