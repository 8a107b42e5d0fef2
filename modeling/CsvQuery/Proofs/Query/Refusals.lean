/-
What a refusal tells.

Reading stops at a missing token only (`Explained`): then no token is left, and
the end of the query is the last thing that it reports, and the only time that
it does.  One clause after another stops where the first or the second one does,
and whatever a recursive clause has found before it stops stays in front of the
end that it came upon.

As the constraints are read until no token is left, every token of a query is
looked at, whether it is accepted, refused or too short.
-/
import CsvQuery.Query.Parse

namespace CsvQuery

/-! ## Errors that stop -/

/-- Is a token missing? -/
def GrammarError.isEnd : GrammarError → Bool
  | .unexpectedEnd _ => true
  | _ => false

/-- Errors that leave the tokens behind them readable. -/
def NoEnd (errors : List GrammarError) :
    Prop := ∀ error ∈ errors, error.isEnd = false

section
variable {errors others : List GrammarError} {error : GrammarError}

@[simp] theorem noEnd_nil :
    NoEnd [] := fun _ herror => absurd herror List.not_mem_nil

@[simp] theorem noEnd_cons_iff :
    NoEnd (error :: errors) ↔ error.isEnd = false ∧ NoEnd errors :=
  List.forall_mem_cons

@[simp] theorem noEnd_append_iff :
    NoEnd (errors ++ others) ↔ NoEnd errors ∧ NoEnd others :=
  List.forall_mem_append

theorem noEnd_map {α : Type} {fault : α → GrammarError}
    (h : ∀ a, (fault a).isEnd = false) (l : List α) : NoEnd (l.map fault) := by
  intro error herror
  obtain ⟨a, -, rfl⟩ := List.mem_map.mp herror
  exact h a

end

/-! ## Readings that stop -/

/-- A reading that stops has come to the end of the tokens and reports it
last; no other error is of this kind. -/
inductive Walk.Explained {α : Type} : Walk α → Prop
  | goesOn {a : α} {errors : List GrammarError} {rest : List String} :
      NoEnd errors → Explained ⟨some a, errors, rest⟩
  | stops {errors : List GrammarError} {expected : Expected} :
      NoEnd errors →
        Explained ⟨none, errors ++ [GrammarError.unexpectedEnd expected], []⟩

section
variable {α β : Type}

namespace Walk

theorem explained_stop (expected : Expected) :
    Explained (⟨none, [.unexpectedEnd expected], []⟩ : Walk α) :=
  .stops noEnd_nil

/-- A reading that adds to another one. -/
theorem Explained.after {walk : Walk α} (h : walk.Explained)
    {errors : List GrammarError} (herrors : NoEnd errors) (f : α → β) :
    Explained ⟨walk.value.map f, errors ++ walk.errors, walk.rest⟩ := by
  cases h with
  | goesOn hothers => exact .goesOn (noEnd_append_iff.mpr ⟨herrors, hothers⟩)
  | stops hothers =>
      rw [← List.append_assoc]
      exact .stops (noEnd_append_iff.mpr ⟨herrors, hothers⟩)

theorem Explained.noEnd {walk : Walk α} (h : walk.Explained) {a : α}
    (hvalue : walk.value = some a) : NoEnd walk.errors := by
  cases h with
  | goesOn herrors => exact herrors
  | stops _ => cases hvalue

/-- What stops a reading stops all that goes on from it. -/
theorem Explained.stopped {walk : Walk α} (h : walk.Explained)
    (hvalue : walk.value = none) :
    Explained (⟨none, walk.errors, walk.rest⟩ : Walk β) := by
  cases h with
  | goesOn _ => cases hvalue
  | stops herrors => exact .stops herrors

theorem Explained.of_none {walk : Walk α} (h : walk.Explained)
    (hvalue : walk.value = none) :
    walk.rest = [] ∧
      ∃ front expected,
        walk.errors = front ++ [GrammarError.unexpectedEnd expected] := by
  cases h with
  | goesOn _ => cases hvalue
  | stops _ => exact ⟨rfl, _, _, rfl⟩

/-- Only the last error can be the one that stops. -/
theorem Explained.dropLast {walk : Walk α}
    (h : walk.Explained) : NoEnd walk.errors.dropLast := by
  cases h with
  | goesOn herrors =>
      exact fun error herror => herrors error (List.dropLast_subset _ herror)
  | stops herrors =>
      rw [List.dropLast_concat]
      exact herrors

end Walk

namespace Clause

/-- A clause that only stops at the end of the tokens, and says so. -/
def Explains (c : Clause α) : Prop := ∀ tokens, (c tokens).Explained

theorem explains_pure (a : α) : Explains (Pure.pure a : Clause α) :=
  fun _ => .goesOn noEnd_nil

theorem explains_report {errors : List GrammarError} (h : NoEnd errors) :
    (report errors).Explains :=
  fun _ => .goesOn h

theorem explains_next (expected : Expected) : (next expected).Explains := by
  intro tokens
  fun_cases next expected tokens with
  | case1 => exact Walk.explained_stop expected
  | case2 token rest => exact .goesOn noEnd_nil

theorem Explains.bind {c : Clause α} {next : α → Clause β} (h : c.Explains)
    (hnext : ∀ a, (next a).Explains) : (c >>= next).Explains := by
  intro tokens
  show Walk.Explained (Clause.bind c next tokens)
  have hfirst := h tokens
  fun_cases Clause.bind c next tokens with
  | case1 first hnone => exact hfirst.stopped hnone
  | case2 first a hvalue second =>
      have := (hnext a first.rest).after (hfirst.noEnd hvalue) id
      rwa [Option.map_id] at this

/-- Reading a word, recording what is wrong with it, and going on. -/
theorem explains_keyword (word : String) (expected : Expected)
    {fault : String → GrammarError} (h : ∀ token, (fault token).isEnd = false) :
    (keyword word expected fault).Explains := by
  refine (explains_next expected).bind fun token => explains_report ?_
  split
  · exact noEnd_nil
  · simp [h]

end Clause
end

open Clause

/-! ## Select list, file and table -/

theorem noEnd_selectEntry (token : String) : NoEnd (selectEntry token).2 := by
  fun_cases selectEntry token <;> simp [GrammarError.isEnd]

theorem explains_selectEntries (token : String) :
    (selectEntries token).Explains := by
  intro tokens
  have hentry := noEnd_selectEntry
  fun_induction selectEntries token tokens with
  | case1 token => exact .goesOn (hentry token)
  | case2 token ref errors heq => exact .stops (by simpa [heq] using hentry token)
  | case3 token ref errors heq next rest others ih =>
      exact ih.after (by simpa [heq] using hentry token) _
  | case4 token comma rest ref errors heq =>
      exact .goesOn (by simpa [heq] using hentry token)

theorem explains_selectColumns (token : String) :
    (selectColumns token).Explains := by
  refine (explains_selectEntries token).bind fun refs => ?_
  exact (explains_report (noEnd_map (fun _ => rfl) _)).bind fun _ => explains_pure _

theorem explains_afterStar : afterStar.Explains := by
  intro tokens
  fun_cases afterStar tokens with
  | case2 => exact .goesOn (by simp [GrammarError.isEnd])
  | _ => exact .goesOn noEnd_nil

theorem explains_selectList : selectList.Explains := by
  intro tokens
  fun_cases selectList tokens with
  | case1 => exact Walk.explained_stop .column
  | case2 => exact .goesOn (by simp [GrammarError.isEnd])
  | case3 => exact explains_afterStar _
  | case4 => exact explains_selectColumns _ _

theorem explains_filePath (files : Files) : (filePath files).Explains := by
  refine (explains_next .path).bind fun token => ?_
  cases Token.path? token.toList with
  | none =>
      refine (explains_report ?_).bind fun _ => explains_pure _
      simp [GrammarError.isEnd]
  | some path =>
      exact (explains_report (noEnd_map (fun _ => rfl) _)).bind fun _ => explains_pure _

theorem explains_tableName : tableName.Explains := by
  intro tokens
  fun_cases tableName tokens with
  | case1 => exact Walk.explained_stop .table
  | case4 => exact .goesOn noEnd_nil
  | _ => exact .goesOn (by simp [GrammarError.isEnd])

theorem noEnd_mismatch (table : Option String)
    (ref : ColumnRef) : NoEnd (mismatch table ref) := by
  fun_cases mismatch table ref <;> simp [GrammarError.isEnd]

theorem noEnd_selectMismatches (table : Option String)
    (items : List SelectItem) :
    NoEnd (selectMismatches table items) := by
  intro error herror
  obtain ⟨item, -, herror⟩ := List.mem_flatMap.mp herror
  cases item with
  | all => cases herror
  | column ref => exact noEnd_mismatch table ref error herror

/-! ## Conditions -/

theorem noEnd_conditionColumn (table : Option String) (token : String)
    (column : List Char) :
    NoEnd (conditionColumn table token column).2 := by
  fun_cases conditionColumn table token column with
  | case1 fault => simp [GrammarError.isEnd]
  | case2 ref => exact noEnd_nil
  | case3 ref => exact noEnd_mismatch table ref

theorem noEnd_conditionOf (table : Option String)
    (column operator value : String) :
    NoEnd (conditionOf table column operator value).2 := by
  have hcolumn := noEnd_conditionColumn table column (Token.splitType column.toList).1
  have htype : NoEnd (conditionType (Token.splitType column.toList).2).2 := by
    fun_cases conditionType (Token.splitType column.toList).2 <;> simp [GrammarError.isEnd]
  have hoperator : NoEnd (conditionOperator operator).2 := by
    fun_cases conditionOperator operator <;> simp [GrammarError.isEnd]
  have hvalue : NoEnd (conditionValue value).2 := by
    fun_cases conditionValue value <;> simp [GrammarError.isEnd]
  have hmismatch : ∀ t v, NoEnd (valueErrors t v) := by
    intro t v
    fun_cases valueErrors t v <;> simp [GrammarError.isEnd]
  simp only [conditionOf, noEnd_append_iff]
  exact ⟨⟨⟨⟨hcolumn, htype⟩, hoperator⟩, hvalue⟩, hmismatch _ _⟩

theorem explains_conditions (table : Option String)
    (after : Option Connective) :
    (conditions table after).Explains := by
  intro tokens
  have hcondition := noEnd_conditionOf table
  fun_induction conditions table after tokens with
  | case7 after column _ operator value condition errors heq =>
      exact .goesOn (by simpa [heq] using hcondition column operator value)
  | case8 after column _ operator value condition errors heq =>
      exact .goesOn (by simpa [heq] using hcondition column operator value)
  | case9 after column _ operator value condition errors heq =>
      refine .goesOn (noEnd_append_iff.mpr ⟨?_, ?_⟩)
      · simpa [heq] using hcondition column operator value
      · simp [GrammarError.isEnd]
  | case10 after column _ operator value condition errors heq _ _ _ _ _ others ih =>
      exact ih.after (by simpa [heq] using hcondition column operator value) _
  | case1 => exact .goesOn (by simp [GrammarError.isEnd])
  | case3 => exact .goesOn (by simp [GrammarError.isEnd])
  | case4 => exact .goesOn (by simp [GrammarError.isEnd])
  | _ => exact Walk.explained_stop _

theorem explains_whereClause
    (table : Option String) : (whereClause table).Explains := by
  intro tokens
  fun_cases whereClause table tokens with
  | case2 => exact explains_conditions table none _
  | _ => exact .goesOn noEnd_nil

/-! ## Limit, offset and sort order -/

theorem explains_boundValue (bound : Bound) : (boundValue bound).Explains := by
  refine (explains_next _).bind fun token => ?_
  cases Integer.readCount? token with
  | none =>
      refine (explains_report ?_).bind fun _ => explains_pure _
      simp [GrammarError.isEnd]
  | some n => exact explains_pure _

theorem noEnd_sortKey (table : Option String) (token : String) :
    NoEnd (sortKey table token).2 := by
  fun_cases sortKey table token with
  | case1 fault => simp [GrammarError.isEnd]
  | case2 ref => exact noEnd_nil
  | case3 ref => exact noEnd_mismatch table ref

theorem explains_sortKeys
    (table : Option String) : Explains (sortKeys table) := by
  intro tokens
  have hkey := noEnd_sortKey table
  fun_induction sortKeys table tokens with
  | case1 => exact .goesOn (by simp [GrammarError.isEnd])
  | case2 => exact .goesOn (by simp [GrammarError.isEnd])
  | case3 token _ key errors heq => exact .goesOn (by simpa [heq] using hkey token)
  | case4 token _ key errors heq rest others ih =>
      exact ih.after (by simpa [heq] using hkey token) _
  | case5 token _ key errors heq => exact .goesOn (by simpa [heq] using hkey token)

theorem explains_byWord : byWord.Explains := by
  intro tokens
  fun_cases byWord tokens with
  | case1 => exact Walk.explained_stop .byWord
  | case2 => exact .goesOn noEnd_nil
  | case3 => exact .goesOn (by simp [GrammarError.isEnd])

theorem explains_sortDirection : sortDirection.Explains := by
  intro tokens
  fun_cases sortDirection tokens <;> exact .goesOn noEnd_nil

theorem explains_sortOrder
    (table : Option String) : (sortOrder table).Explains :=
  explains_byWord.bind fun _ => (explains_sortKeys table).bind fun _ =>
    explains_sortDirection.bind fun _ => explains_pure _

theorem noEnd_repeatError {α : Type} (earlier : Option α) {error : GrammarError}
    (h : error.isEnd = false) : NoEnd (repeatError earlier error) := by
  fun_cases repeatError earlier error <;> simp [h]

theorem explains_constraint (table : Option String) (token : String)
    (found : Constraints) :
    (constraint table token found).Explains := by
  have honce : ∀ {α : Type} (earlier : Option α) {error : GrammarError} (next : Constraints),
      error.isEnd = false → Explains (do report (repeatError earlier error); return next) :=
    fun earlier _ _ herror =>
      (explains_report (noEnd_repeatError earlier herror)).bind fun _ => explains_pure _
  unfold constraint
  split
  · exact (explains_boundValue _).bind fun _ => honce _ _ rfl
  · split
    · exact (explains_boundValue _).bind fun _ => honce _ _ rfl
    · split
      · exact (explains_sortOrder table).bind fun _ => honce _ _ rfl
      · refine (explains_report ?_).bind fun _ => explains_pure _
        simp [GrammarError.isEnd]

theorem explains_constraints (table : Option String) (found : Constraints) :
    (constraints table found).Explains := by
  intro tokens
  fun_induction constraints table found tokens with
  | case1 found => exact .goesOn noEnd_nil
  | case2 found token rest first hnone =>
      exact explains_constraint table token found rest
  | case3 found token rest first updated hvalue others ih =>
      have hfirst := explains_constraint table token found rest
      have hafter := ih.after (hfirst.noEnd hvalue) id
      rwa [Option.map_id] at hafter

/-! ## Reading to the end -/

/-- A clause that leaves no token, whether it stops or not. -/
structure Clause.Finishes {α : Type} (c : Clause α) : Prop where
  explains : c.Explains
  rest : ∀ tokens, (c tokens).rest = []

namespace Clause

section
variable {α β : Type}

theorem Finishes.bind {c : Clause α} {next : α → Clause β} (h : c.Explains)
    (hnext : ∀ a, (next a).Finishes) : (c >>= next).Finishes := by
  refine ⟨h.bind fun a => (hnext a).explains, fun tokens => ?_⟩
  show (Clause.bind c next tokens).rest = []
  fun_cases Clause.bind c next tokens with
  | case1 first hnone => exact ((h tokens).of_none hnone).1
  | case2 first a hvalue second => exact (hnext a).rest first.rest

theorem Finishes.map {c : Clause α} (h : c.Finishes) (f : α → β) :
    Finishes (do let a ← c; return f a) := by
  refine ⟨h.explains.bind fun a => explains_pure (f a), fun tokens => ?_⟩
  show (Clause.bind c (fun a => Clause.pure (f a)) tokens).rest = []
  fun_cases Clause.bind c (fun a => Clause.pure (f a)) tokens <;> exact h.rest tokens

end
end Clause

theorem finishes_constraints (table : Option String) (found : Constraints) :
    (constraints table found).Finishes := by
  refine ⟨explains_constraints table found, fun tokens => ?_⟩
  fun_induction constraints table found tokens with
  | case1 found => rfl
  | case2 found token rest first hnone =>
      exact ((explains_constraint table token found rest).of_none hnone).1
  | case3 found token rest first updated hvalue others ih => exact ih

/-! ## Whole queries -/

theorem finishes_queryClause
    (files : Files) : (queryClause files).Finishes := by
  refine .bind (explains_keyword _ _ fun _ => rfl) fun _ => ?_
  refine .bind explains_selectList fun select => ?_
  refine .bind (explains_keyword _ _ fun _ => rfl) fun _ => ?_
  refine .bind (explains_filePath files) fun path => ?_
  refine .bind (explains_keyword _ _ fun _ => rfl) fun _ => ?_
  refine .bind explains_tableName fun table => ?_
  refine .bind (explains_report (noEnd_selectMismatches table select)) fun _ => ?_
  refine .bind (explains_whereClause table) fun conditions => ?_
  exact (finishes_constraints table {}).map _

/-- A query is refused for the errors of its reading, if there are any. -/
theorem ofTokens_eq_error_iff {files : Files} {tokens : List String}
    {errors : List GrammarError} :
    Query.ofTokens files tokens = .error errors ↔
      (queryClause files tokens).errors = errors ∧ errors ≠ [] := by
  have hexplained := (finishes_queryClause files).explains tokens
  have hnonempty : ∀ found : List GrammarError, found ≠ [] →
      (found = errors ↔ found = errors ∧ errors ≠ []) := by
    intro found hne
    constructor
    · rintro rfl
      exact ⟨rfl, hne⟩
    · exact And.left
  unfold Query.ofTokens
  generalize queryClause files tokens = walk at hexplained
  cases hexplained with
  | @goesOn q found rest _ =>
      cases found with
      | nil => simp [eq_comm]
      | cons error found =>
          simpa using hnonempty (error :: found) (List.cons_ne_nil _ _)
  | @stops found expected _ =>
      simpa using hnonempty (found ++ [GrammarError.unexpectedEnd expected]) (by simp)

/-- A text is never refused without an error. -/
theorem errors_ne_nil_of_parse {files : Files} {sql : String}
    {errors : List GrammarError}
    (h : Query.parse files sql = .error errors) : errors ≠ [] :=
  (ofTokens_eq_error_iff.mp h).2

/-- A refusal has errors.  The end of the query is the last of them when
reading stopped as a token was missing, and else it is not among them.  In
any case no token is left. -/
theorem refusal_explains_itself (files : Files) (tokens : List String) :
    ((∃ q, Query.ofTokens files tokens = .ok q) ∨
      ∃ errors, Query.ofTokens files tokens = .error errors ∧ errors ≠ [] ∧
        ∀ error ∈ errors.dropLast,
          ∀ expected, error ≠ .unexpectedEnd expected) ∧
    ((queryClause files tokens).value = none ↔ ∃ errors expected,
      Query.ofTokens files tokens = .error errors ∧
      .unexpectedEnd expected ∈ errors) ∧
    (queryClause files tokens).rest = [] := by
  have hfinishes := finishes_queryClause files
  have hexplained := hfinishes.explains tokens
  refine ⟨?kinds, ?stopped, hfinishes.rest tokens⟩
  case kinds =>
    cases hresult : Query.ofTokens files tokens with
    | ok q => exact .inl ⟨q, rfl⟩
    | error errors =>
        obtain ⟨rfl, hne⟩ := ofTokens_eq_error_iff.mp hresult
        refine .inr ⟨_, rfl, hne, ?_⟩
        rintro error herror expected rfl
        cases hexplained.dropLast _ herror
  case stopped =>
    constructor
    · intro hnone
      obtain ⟨-, front, expected, herrors⟩ := hexplained.of_none hnone
      exact ⟨_, expected, ofTokens_eq_error_iff.mpr ⟨rfl, by simp [herrors]⟩, by simp [herrors]⟩
    · rintro ⟨errors, expected, hresult, hend⟩
      obtain ⟨rfl, -⟩ := ofTokens_eq_error_iff.mp hresult
      cases hvalue : (queryClause files tokens).value with
      | none => rfl
      | some q => cases hexplained.noEnd hvalue _ hend

end CsvQuery
