/-
What the clauses of a query read without an error.

A clause `Reads` a value when it finds it in front of the tokens that it
leaves and has nothing to report.  Reading one clause after another without
errors is reading each of them without errors (`reads_bind_iff`), so that one
equivalence for each clause is all there is to say, recovery and all: a
clause that goes on behind a wrong token has reported it.

Some clauses look one token ahead to find their own end.  What they need to see
there is a comma that is missing (`NoComma`) or the word that starts the next
constraint, if there is a next one (`Follows`).
-/
import CsvQuery.Proofs.Query.Tokens

namespace CsvQuery

open Grammar

/-! ## Reading without errors -/

namespace Clause

section
variable {α β : Type} {tokens rest : List String}

/-- The clause finds the value and no error, and leaves the rest. -/
def Reads (c : Clause α) (tokens : List String) (a : α)
    (rest : List String) : Prop :=
  c tokens = ⟨some a, [], rest⟩

theorem reads_bind_iff {c : Clause α} {next : α → Clause β} {b : β} :
    Reads (c >>= next) tokens b rest ↔
      ∃ a mid, c.Reads tokens a mid ∧ (next a).Reads mid b rest := by
  show bind c next tokens = _ ↔ _
  unfold bind Reads
  cases h : c tokens with
  | mk value errors mid =>
      cases value with
      | none => simp
      | some a =>
          cases hn : next a mid with
          | mk value' errors' rest' =>
              constructor
              · intro heq
                simp only [hn, Walk.mk.injEq, List.append_eq_nil_iff] at heq
                obtain ⟨rfl, ⟨rfl, rfl⟩, rfl⟩ := heq
                exact ⟨a, mid, rfl, hn⟩
              · rintro ⟨a', mid', heq, hn'⟩
                simp only [Walk.mk.injEq, Option.some.injEq] at heq
                obtain ⟨rfl, rfl, rfl⟩ := heq
                simp [hn']

theorem reads_pure_iff {a b : α} :
    Reads (Pure.pure a) tokens b rest ↔ a = b ∧ tokens = rest := by
  show pure a tokens = _ ↔ _
  simp [pure]

theorem reads_report_iff {errors : List GrammarError} {u : Unit} :
    (report errors).Reads tokens u rest ↔ errors = [] ∧ tokens = rest := by
  simp [Reads, report]

theorem reads_next_iff {expected : Expected} {token : String} :
    (next expected).Reads tokens token rest ↔ tokens = token :: rest := by
  cases tokens <;> simp [Reads, next, stop, pure]

theorem reads_keyword_iff {word : String} {expected : Expected}
    {fault : String → GrammarError} {u : Unit} :
    (keyword word expected fault).Reads tokens u rest ↔
      ∃ token, tokens = token :: rest ∧ Text.sameWord token word := by
  unfold keyword
  rw [reads_bind_iff]
  constructor
  · rintro ⟨token, mid, hnext, hreport⟩
    obtain ⟨herrors, rfl⟩ := reads_report_iff.mp hreport
    refine ⟨token, reads_next_iff.mp hnext, ?_⟩
    simpa using herrors
  · rintro ⟨token, rfl, hword⟩
    exact ⟨token, rest, reads_next_iff.mpr rfl, reads_report_iff.mpr ⟨by simp [hword], rfl⟩⟩

end

/-- A clause that adds to what another one has read. -/
theorem walk_map_eq_iff {α β : Type} {walk : Walk α} {f : α → β}
    {errors : List GrammarError} {b : β} {rest : List String} :
    (⟨walk.value.map f, errors ++ walk.errors, walk.rest⟩ : Walk β)
      = ⟨some b, [], rest⟩ ↔
      errors = [] ∧ ∃ a, walk = ⟨some a, [], rest⟩ ∧ f a = b := by
  constructor
  · intro h
    simp only [Walk.mk.injEq, Option.map_eq_some_iff, List.append_eq_nil_iff] at h
    obtain ⟨⟨a, hvalue, hf⟩, ⟨rfl, herrors⟩, rfl⟩ := h
    exact ⟨rfl, a, by rw [← hvalue, ← herrors], hf⟩
  · rintro ⟨rfl, a, rfl, rfl⟩
    rfl

end Clause

open Clause

/-! ## Looking ahead -/

/-- The list of columns goes no further. -/
def NoComma (rest : List String) : Prop := rest.head? ≠ some ","

/-- Nothing is left, or the next constraint. -/
def Follows (rest : List String) :
    Prop := ∀ token ∈ rest.head?, Token.startsConstraint token

/-- A word spells another one in lower case. -/
theorem sameWord_iff {token word : String} :
    Text.sameWord token word ↔
      token.toList.map Char.toLower = word.toList.map Char.toLower := by
  simp [Text.sameWord]

/-- Words of different spellings are not confused. -/
theorem sameWord_of_sameWord {token word other : String}
    (h : Text.sameWord token word) :
    Text.sameWord token other ↔ Text.sameWord word other := by
  rw [sameWord_iff] at h
  rw [sameWord_iff, sameWord_iff, h]

/-- The case of the word does not matter either. -/
theorem sameWord_congr_right {token word other : String}
    (h : Text.sameWord word other) :
    Text.sameWord token word ↔ Text.sameWord token other := by
  rw [sameWord_iff] at h
  rw [sameWord_iff, sameWord_iff, h]

/-- A token that starts with a quote is no word of the language. -/
theorem not_sameWord_of_quote {token word : String}
    (htoken : token.toList.head? = some Token.quoteMark)
    (hword : (word.toList.map Char.toLower).head? ≠ some Token.quoteMark) :
    ¬ Text.sameWord token word := by
  intro h
  rw [sameWord_iff] at h
  apply hword
  rw [← h, List.head?_map, htoken]
  rfl

theorem startsConstraint_iff {token : String} :
    Token.startsConstraint token ↔
      Text.sameWord token "limit" ∨ Text.sameWord token "offset" ∨
      Text.sameWord token "order" := by
  simp [Token.startsConstraint]

theorem Grammar.IsRef.head? {token : String} {ref : ColumnRef}
    (h : IsRef token ref) :
    token.toList.head? = some Token.quoteMark := by
  rw [h.token, toList_inQuotes]
  rfl

theorem Grammar.IsColumn.head? {token : String} {ref : ColumnRef}
    {t : Option ValueType} (h : IsColumn token ref t) :
    token.toList.head? = some Token.quoteMark := by
  cases h with
  | untyped href => exact href.head?
  | typed t href =>
      rw [href.token]
      simp

theorem not_startsConstraint_of_quote {token : String}
    (h : token.toList.head? = some Token.quoteMark) :
    ¬ Token.startsConstraint token := by
  rw [startsConstraint_iff]
  rintro (hw | hw | hw) <;> exact not_sameWord_of_quote h (by decide) hw

theorem startsConstraint_congr {token word : String}
    (h : Text.sameWord token word) :
    Token.startsConstraint token ↔ Token.startsConstraint word := by
  simp only [startsConstraint_iff, sameWord_of_sameWord h]

theorem Follows.not_sameWord {token word : String} {tokens : List String}
    (h : Follows (token :: tokens)) (hword : ¬ Token.startsConstraint word) :
    ¬ Text.sameWord token word :=
  fun hsame => hword ((startsConstraint_congr hsame).mp (h token rfl))

theorem Follows.noComma {rest : List String}
    (h : Follows rest) : NoComma rest := by
  intro hcomma
  exact absurd (h "," hcomma) (by decide)

/-! ## The table of a reference -/

theorem mismatch_eq_nil_iff {table : String} {ref : ColumnRef} :
    mismatch (some table) ref = [] ↔ ref.table = table := by
  by_cases h : ref.table = table <;> simp [mismatch, h]

end CsvQuery
