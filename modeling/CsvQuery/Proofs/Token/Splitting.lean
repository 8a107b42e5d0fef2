/-
What the tokenizer makes of a text.

No character of a text is lost: the tokens and the gaps between them are the
text again (`scan_isLayout`).  And a text is cut nowhere but at a separator or
a comma that stands outside of quotes.  `InToken` says that of the characters
of one token, read from its start, and `Lexed` of a list of tokens: only the
last one, which the end of the text cuts off, can leave a quote open.

The invariant of the pass is that the token read so far is `InToken` with the
quote mode that the pass is in.
-/
import CsvQuery.Proofs.Token.Layout
import CsvQuery.Proofs.Token.QuoteMarks

namespace CsvQuery
namespace Token

/-! ## The characters of a token -/

/-- Characters read outside of quotes, every mark opening or closing one:
among them is no separator and no comma but within quotes.  The flag tells
whether a quote is left open. -/
inductive InToken : Bool → List Char → Prop
  | start : InToken false []
  | mark {quoted : Bool} {cs : List Char} :
      InToken quoted cs → InToken (!quoted) (cs ++ [quoteMark])
  | quoted {cs : List Char} {c : Char} :
      InToken true cs → c ≠ quoteMark → InToken true (cs ++ [c])
  | plain {cs : List Char} {c : Char} : InToken false cs → Plain c →
      InToken false (cs ++ [c])

/-- A quote is left open by an odd number of marks. -/
theorem InToken.quoted_iff {quoted : Bool} {cs : List Char}
    (h : InToken quoted cs) :
    quoted = true ↔ marks cs % 2 = 1 := by
  induction h with
  | start => simp
  | @mark quoted cs _ ih =>
      rw [Bool.not_eq_true', ← Bool.not_eq_true, ih, marks_append,
        marks_quoteMark_cons, marks_nil]
      omega
  | quoted _ hc ih =>
      rw [ih, marks_append, marks_cons_of_ne hc, marks_nil, Nat.add_zero]
  | plain _ hc ih =>
      rw [ih, marks_append, marks_cons_of_ne hc.notMark, marks_nil, Nat.add_zero]

theorem InToken.balanced {cs : List Char}
    (h : InToken false cs) : marks cs % 2 = 0 := by
  have hodd : ¬ marks cs % 2 = 1 :=
    fun hodd => Bool.false_ne_true (h.quoted_iff.mpr hodd)
  omega

/-- What a token can be: a comma, or characters without a separator or a
comma outside of quotes. -/
def IsToken (token : String) : Prop :=
  token ≠ "" ∧ (token = "," ∨ ∃ quoted, InToken quoted token.toList)

/-! ## Lists of tokens -/

/-- Tokens that are commas or whole, but for the last one, which the end may
have cut off inside of quotes. -/
inductive Lexed : List (List Char) → Prop
  | nil : Lexed []
  | cut {quoted : Bool} {cs : List Char} : cs ≠ [] →
      InToken quoted cs → Lexed [cs]
  | comma {tokens : List (List Char)} : Lexed tokens → Lexed ([','] :: tokens)
  | whole {cs : List Char} {tokens : List (List Char)} :
      cs ≠ [] → InToken false cs → Lexed tokens → Lexed (cs :: tokens)

theorem Lexed.mem {tokens : List (List Char)} (h : Lexed tokens) :
    ∀ cs ∈ tokens, cs ≠ [] ∧ (cs = [','] ∨ ∃ quoted, InToken quoted cs) := by
  induction h with
  | nil => exact fun _ hcs => absurd hcs List.not_mem_nil
  | cut hne hin =>
      intro cs hcs
      obtain rfl := List.mem_singleton.mp hcs
      exact ⟨hne, .inr ⟨_, hin⟩⟩
  | comma _ ih =>
      intro cs hcs
      rcases List.mem_cons.mp hcs with rfl | hcs
      · exact ⟨List.cons_ne_nil _ _, .inl rfl⟩
      · exact ih cs hcs
  | whole hne hin _ ih =>
      intro cs hcs
      rcases List.mem_cons.mp hcs with rfl | hcs
      · exact ⟨hne, .inr ⟨false, hin⟩⟩
      · exact ih cs hcs

theorem mem_dropLast_cons {α : Type} {a b : α} {l : List α}
    (h : a ∈ (b :: l).dropLast) :
    a = b ∨ a ∈ l.dropLast := by
  cases l with
  | nil => exact absurd h List.not_mem_nil
  | cons c l => exact List.mem_cons.mp h

theorem Lexed.balanced {tokens : List (List Char)} (h : Lexed tokens) :
    ∀ cs ∈ tokens.dropLast, marks cs % 2 = 0 := by
  induction h with
  | nil => exact fun _ hcs => absurd hcs List.not_mem_nil
  | cut => exact fun _ hcs => absurd hcs List.not_mem_nil
  | comma _ ih =>
      intro cs hcs
      rcases mem_dropLast_cons hcs with rfl | hcs
      · rfl
      · exact ih cs hcs
  | whole _ hin _ ih =>
      intro cs hcs
      rcases mem_dropLast_cons hcs with rfl | hcs
      · exact hin.balanced
      · exact ih cs hcs

theorem Lexed.flush {current : List Char} {tokens : List (List Char)}
    (h : InToken false current.reverse) (htokens : Lexed tokens) :
    Lexed (Token.flush current ++ tokens) := by
  cases current with
  | nil => exact htokens
  | cons c current => exact .whole (by simp) h htokens

/-- What the pass adds to the token read so far keeps it a part of one token,
and what it ends is whole. -/
theorem lexed_scan (cs : List Char) : ∀ {quoted : Bool} {current : List Char},
    InToken quoted current.reverse → Lexed (scan quoted current cs) := by
  induction cs with
  | nil =>
      intro quoted current h
      cases current with
      | nil => exact .nil
      | cons c current => exact .cut (by simp) h
  | cons c cs ih =>
      intro quoted current h
      rw [scan]
      split
      · next hmark =>
          subst hmark
          exact ih (by simpa using h.mark)
      · next hmark =>
          cases quoted with
          | true =>
              rw [if_pos rfl]
              exact ih (by simpa using h.quoted hmark)
          | false =>
              rw [if_neg Bool.false_ne_true]
              split
              · exact (ih .start).flush h
              · next hseparator =>
                  split
                  · exact (ih .start).comma.flush h
                  · next hcomma =>
                      have hplain : Plain c :=
                        ⟨hmark, by simpa using hseparator, hcomma⟩
                      exact ih (by simpa using h.plain hplain)

/-! ## Tokens and gaps -/

/-- The characters are the tokens, with gaps in front of them, between them
and behind them. -/
def IsLayout (tokens : List String) (cs : List Char) : Prop :=
  ∃ gap body, cs = gap ++ body ∧ IsGap gap ∧ LaidOut tokens body

/-- A token that is ended by a gap, or by a comma right behind it. -/
theorem IsLayout.flush {current gap body : List Char} {tokens : List String}
    (hgap : IsGap gap) (hempty : gap = [] → ∀ next ∈ tokens.head?, next = ",")
    (hbody : LaidOut tokens body) :
    IsLayout ((Token.flush current).map String.ofList ++ tokens)
      (current.reverse ++ (gap ++ body)) := by
  cases current with
  | nil => exact ⟨gap, body, rfl, hgap, hbody⟩
  | cons c current =>
      have hnone : IsGap [] := fun _ hc => absurd hc List.not_mem_nil
      have htoken : LaidOut (String.ofList (c :: current).reverse :: tokens)
          ((String.ofList (c :: current).reverse).toList ++ gap ++ body) :=
        .cons hgap (fun hnil => .inr (hempty hnil)) hbody
      refine ⟨[], _, ?_, hnone, htoken⟩
      rw [String.toList_ofList, List.nil_append, List.append_assoc]

/-- The token read so far and the characters that are left are laid out from
the tokens that the pass finds, whatever the quote mode is. -/
theorem scan_isLayout (cs : List Char) :
    ∀ (quoted : Bool) (current : List Char),
    IsLayout ((scan quoted current cs).map String.ofList)
      (current.reverse ++ cs) := by
  have hnone : IsGap [] := fun _ hc => absurd hc List.not_mem_nil
  induction cs with
  | nil =>
      intro quoted current
      have hend : IsLayout ((Token.flush current).map String.ofList ++ [])
          (current.reverse ++ ([] ++ [])) :=
        .flush hnone (fun _ _ hnext => by cases hnext) .nil
      simpa [scan] using hend
  | cons c cs ih =>
      intro quoted current
      have hkeep : ∀ quoted : Bool, IsLayout ((scan quoted (c :: current) cs).map String.ofList)
          (current.reverse ++ c :: cs) := by
        intro quoted
        simpa using ih quoted (c :: current)
      obtain ⟨gap, body, htail, hgap, hbody⟩ := ih false []
      rw [List.reverse_nil, List.nil_append] at htail
      rw [scan]
      split
      · exact hkeep _
      · split
        · exact hkeep _
        · split
          · next hseparator =>
              have hlonger : IsGap (c :: gap) :=
                List.forall_mem_cons.mpr ⟨hseparator, hgap⟩
              have hends : IsLayout
                  ((Token.flush current).map String.ofList ++ (scan false [] cs).map String.ofList)
                  (current.reverse ++ (c :: gap ++ body)) :=
                .flush hlonger (fun hnil => absurd hnil (List.cons_ne_nil _ _)) hbody
              rw [List.cons_append, ← htail] at hends
              rwa [List.map_append]
          · split
            · next hcomma =>
                subst hcomma
                have hrest : LaidOut ("," :: (scan false [] cs).map String.ofList)
                    (',' :: (gap ++ body)) :=
                  .cons hgap (fun _ => .inl rfl) hbody
                rw [← htail] at hrest
                rw [List.map_append]
                refine .flush hnone (fun _ next hnext => ?_) hrest
                cases hnext
                rfl
            · exact hkeep _

end Token

/-! ## What is found -/

section
variable {sql token : String}

/-- What the tokenizer finds are commas and tokens that are cut nowhere
inside. -/
theorem isToken_of_mem_tokenize
    (h : token ∈ tokenize sql) : Token.IsToken token := by
  have hlexed : Token.Lexed (Token.scan false [] sql.toList) :=
    Token.lexed_scan _ .start
  obtain ⟨cs, hcs, rfl⟩ := List.mem_map.mp h
  obtain ⟨hne, hcases⟩ := hlexed.mem cs hcs
  refine ⟨by simpa using hne, ?_⟩
  rcases hcases with rfl | hin
  · exact .inl rfl
  · exact .inr (by simpa using hin)

/-- Every token but the last one closes all its quotes. -/
theorem closed_of_mem_tokenize (h : token ∈ (tokenize sql).dropLast) :
    Token.marks token.toList % 2 = 0 := by
  have hlexed : Token.Lexed (Token.scan false [] sql.toList) :=
    Token.lexed_scan _ .start
  rw [tokenize, ← List.map_dropLast] at h
  obtain ⟨cs, hcs, rfl⟩ := List.mem_map.mp h
  simpa using hlexed.balanced cs hcs

end

/-- The tokens of a text and the gaps between them make up the text.  A token
is a comma, or it holds neither a separator nor a comma outside of quotes;
every token but the last closes all its quotes; and two tokens without a gap
between them have a comma among them. -/
theorem tokenize_loses_nothing (sql : String) :
    Token.IsLayout (tokenize sql) sql.toList ∧
      (∀ token ∈ tokenize sql,
        token ≠ "" ∧ (token = "," ∨
          ∃ quoted, Token.InToken quoted token.toList)) ∧
      ∀ token ∈ (tokenize sql).dropLast, Token.marks token.toList % 2 = 0 := by
  refine ⟨Token.scan_isLayout sql.toList false [], ?_, ?_⟩
  · intro token htoken
    exact isToken_of_mem_tokenize htoken
  · intro token htoken
    exact closed_of_mem_tokenize htoken

end CsvQuery
