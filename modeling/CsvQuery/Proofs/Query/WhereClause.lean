/-
Reading the conditions of a query.

Three tokens make a condition when each of them is right and the value is one of
the declared type (`conditionOf_eq_iff`).  The conditions end where no
connective follows, which without an error means: at the end of the query or at
the next constraint.
-/
import CsvQuery.Proofs.Query.Reading

namespace CsvQuery

open Grammar Clause

/-! ## One condition -/

theorem conditionColumn_eq_iff {table token : String} {column : List Char}
    {o : Option ColumnRef} :
    conditionColumn (some table) token column = (o, []) ↔
      ∃ ref, o = some ref ∧ Token.columnRef column = .ok ref ∧
        ref.table = table := by
  unfold conditionColumn
  cases hcolumn : Token.columnRef column with
  | error fault => simp
  | ok ref =>
      by_cases htable : ref.table = table
      · constructor
        · intro h
          simp only [mismatch, htable, if_pos, Prod.mk.injEq, and_true] at h
          exact ⟨ref, h.symm, rfl, htable⟩
        · rintro ⟨_, rfl, heq, -⟩
          cases heq
          simp [mismatch, htable]
      · constructor
        · intro h
          simp [mismatch, htable] at h
        · rintro ⟨_, rfl, heq, h⟩
          cases heq
          exact absurd h htable

theorem conditionType_eq_iff {word : Option (List Char)}
    {o : Option (Option ValueType)} :
    conditionType word = (o, []) ↔
      ∃ t, o = some t ∧ word = t.map fun t : ValueType => t.word.toList := by
  cases word with
  | none =>
      constructor
      · intro h
        cases h
        exact ⟨none, rfl, rfl⟩
      · rintro ⟨t, rfl, ht⟩
        obtain rfl : t = none := by simpa using ht.symm
        rfl
  | some word =>
      rw [conditionType]
      constructor
      · intro h
        split at h
        · next t ht =>
            cases h
            rw [ValueType.ofWord?_eq_some_iff] at ht
            exact ⟨some t, rfl, by simp [← ht]⟩
        · simp at h
      · rintro ⟨t, rfl, ht⟩
        obtain ⟨t, rfl, rfl⟩ := Option.map_eq_some_iff.mp ht.symm
        have hword : ValueType.ofWord? (String.ofList t.word.toList) = some t := by
          rw [ValueType.ofWord?_eq_some_iff]
          simp
        rw [hword]

theorem conditionOperator_eq_iff {token : String} {o : Option Comparison} :
    conditionOperator token = (o, []) ↔ ∃ c, o = some c ∧ token = c.symbol := by
  unfold conditionOperator
  cases hc : Comparison.ofSymbol? token with
  | none =>
      constructor
      · intro h
        simp at h
      · rintro ⟨c, -, htoken⟩
        rw [Comparison.ofSymbol?_eq_some_iff.mpr htoken] at hc
        cases hc
  | some c =>
      rw [Comparison.ofSymbol?_eq_some_iff] at hc
      constructor
      · intro h
        cases h
        exact ⟨c, rfl, hc⟩
      · rintro ⟨c', rfl, hc'⟩
        rw [← Comparison.ofSymbol?_eq_some_iff] at hc hc'
        rw [hc] at hc'
        cases hc'
        rfl

theorem conditionValue_eq_iff {token : String} {o : Option String} :
    conditionValue token = (o, []) ↔
      ∃ value, o = some value ∧ token = inQuotes value := by
  unfold conditionValue
  constructor
  · intro h
    split at h
    · next value hvalue =>
        cases h
        exact ⟨_, rfl, Token.unquote?_toList_iff.mp (by simpa using hvalue)⟩
    · simp at h
  · rintro ⟨value, rfl, rfl⟩
    rw [Token.unquote?_toList_iff.mpr rfl]
    simp

theorem valueErrors_eq_nil_iff {t : Option ValueType} {value : String} :
    valueErrors (some t) (some value) = [] ↔ ∀ t' ∈ t, t'.accepts value := by
  cases t with
  | none => simp [valueErrors]
  | some t => simp [valueErrors]

theorem conditionOf_eq_iff {table column operator value : String}
    {o : Option Condition} :
    conditionOf (some table) column operator value = (o, []) ↔
      ∃ c, o = some c ∧ c.joiner = none ∧ IsCondition column operator value c ∧
        c.ref.table = table := by
  unfold conditionOf
  rcases hsplit : Token.splitType column.toList with ⟨columnPart, typePart⟩
  rcases hcolumn : conditionColumn (some table) column columnPart with ⟨ref, refErrors⟩
  rcases htype : conditionType typePart with ⟨t, typeErrors⟩
  rcases hoperator : conditionOperator operator with ⟨op, operatorErrors⟩
  rcases hvalue : conditionValue value with ⟨v, quoteErrors⟩
  have hspec := Token.splitType_spec column
  simp only [hsplit] at hspec
  simp only [hcolumn, htype]
  constructor
  · intro h
    simp only [Prod.mk.injEq, List.append_eq_nil_iff] at h
    obtain ⟨hcondition, ⟨⟨⟨rfl, rfl⟩, rfl⟩, rfl⟩, hmismatches⟩ := h
    obtain ⟨ref, rfl, href, htable⟩ := conditionColumn_eq_iff.mp hcolumn
    obtain ⟨t, rfl, ht⟩ := conditionType_eq_iff.mp htype
    obtain ⟨op, rfl, hop⟩ := conditionOperator_eq_iff.mp hoperator
    obtain ⟨v, rfl, hv⟩ := conditionValue_eq_iff.mp hvalue
    simp [hmismatches] at hcondition
    exact ⟨_, hcondition.symm, rfl, ⟨(hspec ref t).mp ⟨href, ht⟩, hop, hv,
      valueErrors_eq_nil_iff.mp hmismatches⟩, htable⟩
  · rintro ⟨c, rfl, hjoiner, ⟨hcol, hop, hv, haccepted⟩, htable⟩
    obtain ⟨href, ht⟩ := (hspec c.ref c.valueType).mpr hcol
    rw [conditionColumn_eq_iff.mpr ⟨c.ref, rfl, href, htable⟩] at hcolumn
    rw [conditionType_eq_iff.mpr ⟨c.valueType, rfl, ht⟩] at htype
    rw [conditionOperator_eq_iff.mpr ⟨c.operator, rfl, hop⟩] at hoperator
    rw [conditionValue_eq_iff.mpr ⟨c.value, rfl, hv⟩] at hvalue
    cases hcolumn
    cases htype
    cases hoperator
    cases hvalue
    simp [valueErrors_eq_nil_iff.mpr haccepted, ← hjoiner]

/-! ## All conditions -/

theorem Token.connective?_eq_some_iff {token : String} {k : Connective} :
    connective? token = some k ↔ Text.sameWord token k.word := by
  unfold connective?
  constructor
  · intro h
    split at h
    · next hand =>
        cases h
        exact (sameWord_congr_right (by decide)).mp hand
    · split at h
      · next hor =>
          cases h
          exact (sameWord_congr_right (by decide)).mp hor
      · cases h
  · intro h
    cases k with
    | and => rw [if_pos ((sameWord_of_sameWord h).mpr (by decide))]
    | or =>
        rw [if_neg (mt (sameWord_of_sameWord h).mp (by decide)),
          if_pos ((sameWord_of_sameWord h).mpr (by decide))]

theorem not_startsConstraint_of_connective {token : String} {k : Connective}
    (h : Text.sameWord token k.word) : ¬ Token.startsConstraint token := by
  rw [startsConstraint_congr h]
  cases k <;> decide

/-- The tokens start with conditions on the columns of a table, and `rest` is
what is behind the last one. -/
def ConditionsThen (table : String) (tokens : List String) (cs : List Condition)
    (rest : List String) : Prop :=
  ∃ front, tokens = front ++ rest ∧ Conditions front cs ∧ (∀ c ∈ cs, c.ref.table = table) ∧
    Follows rest

/-- A condition is the last one, or a connective and more conditions follow
it. -/
theorem conditionsThen_cons_iff {table column operator value : String}
    {tokens rest : List String} {cs : List Condition} :
    ConditionsThen table (column :: operator :: value :: tokens) cs rest ↔
      ∃ c, IsCondition column operator value c ∧ c.ref.table = table ∧
        (c.joiner = none ∧ cs = [c] ∧ tokens = rest ∧ Follows rest ∨
          ∃ k word tail others, c.joiner = some k ∧ tokens = word :: tail ∧
            Text.sameWord word k.word ∧ cs = c :: others ∧
            ConditionsThen table tail others rest) := by
  constructor
  · rintro ⟨front, htokens, hconditions, htable, hrest⟩
    cases hconditions with
    | last hc hjoiner =>
        simp only [List.cons_append, List.nil_append, List.cons.injEq] at htokens
        obtain ⟨rfl, rfl, rfl, rfl⟩ := htokens
        exact ⟨_, hc, htable _ (List.mem_singleton.mpr rfl), .inl ⟨hjoiner, rfl, rfl, hrest⟩⟩
    | more hc hjoiner hword hothers =>
        simp only [List.cons_append, List.cons.injEq] at htokens
        obtain ⟨rfl, rfl, rfl, rfl⟩ := htokens
        exact ⟨_, hc, htable _ List.mem_cons_self, .inr ⟨_, _, _, _, hjoiner, rfl, hword, rfl,
          _, rfl, hothers, fun c hmem => htable c (List.mem_cons_of_mem _ hmem), hrest⟩⟩
  · rintro ⟨c, hc, htable, ⟨hjoiner, rfl, rfl, hrest⟩ |
      ⟨k, word, tail, others, hjoiner, rfl, hword, rfl, front, rfl, hothers, htables, hrest⟩⟩
    · exact ⟨[column, operator, value], rfl, .last hc hjoiner, by simpa using htable, hrest⟩
    · exact ⟨column :: operator :: value :: word :: front, rfl, .more hc hjoiner hword hothers,
        by simpa using ⟨htable, htables⟩, hrest⟩

/-- Conditions have three tokens at least, of which the first is a column. -/
theorem ConditionsThen.tokens {table : String} {tokens rest : List String}
    {cs : List Condition} (h : ConditionsThen table tokens cs rest) :
    ∃ column operator value tail, tokens = column :: operator :: value :: tail ∧
      ¬ Token.startsConstraint column := by
  obtain ⟨front, rfl, hconditions, -, -⟩ := h
  cases hconditions with
  | last hc _ => exact ⟨_, _, _, _, rfl, not_startsConstraint_of_quote hc.column.head?⟩
  | more hc _ _ _ =>
      exact ⟨_, _, _, _, rfl, not_startsConstraint_of_quote hc.column.head?⟩

/-- The joiner is no part of the three tokens. -/
theorem Grammar.IsCondition.withJoiner {column operator value : String}
    {c : Condition} (h : IsCondition column operator value c)
    (joiner : Option Connective) :
    IsCondition column operator value { c with joiner } :=
  ⟨h.column, h.operator, h.value, h.accepted⟩

/-- The condition in front of the end of the clause. -/
theorem lastCondition_iff {table column operator value : String}
    {condition : Option Condition} {errors : List GrammarError}
    {tail rest : List String} {cs : List Condition}
    (hcondition : conditionOf (some table) column operator value
      = (condition, errors)) (htail : Follows tail) :
    (⟨some condition.toList, errors, tail⟩ : Walk (List Condition))
      = ⟨some cs, [], rest⟩ ↔
      ConditionsThen table (column :: operator :: value :: tail) cs rest := by
  rw [conditionsThen_cons_iff]
  constructor
  · intro h
    simp only [Walk.mk.injEq, Option.some.injEq] at h
    obtain ⟨rfl, rfl, rfl⟩ := h
    obtain ⟨c, rfl, hjoiner, hc, htable⟩ := conditionOf_eq_iff.mp hcondition
    exact ⟨c, hc, htable, .inl ⟨hjoiner, rfl, rfl, htail⟩⟩
  · rintro ⟨c, hc, htable, ⟨hjoiner, rfl, rfl, -⟩ | ⟨k, word, _, _, -, rfl, hword, -⟩⟩
    · rw [conditionOf_eq_iff.mpr ⟨c, rfl, hjoiner, hc, htable⟩] at hcondition
      cases hcondition
      rfl
    · exact absurd (htail word rfl) (not_startsConstraint_of_connective hword)

theorem reads_conditions_iff {table : String} {after : Option Connective}
    {tokens rest : List String} {cs : List Condition} :
    (conditions (some table) after).Reads tokens cs rest ↔
      ConditionsThen table tokens cs rest := by
  unfold Reads
  fun_induction conditions (some table) after tokens generalizing cs with
  | case7 _ column _ operator value condition errors hcondition =>
      exact lastCondition_iff hcondition (by simp [Follows])
  | case8 _ column _ operator value condition errors hcondition token tail htoken =>
      exact lastCondition_iff hcondition (by simpa [Follows] using htoken)
  | case9 _ column _ operator value condition errors hcondition token tail htoken hword =>
      rw [conditionsThen_cons_iff]
      constructor
      · intro h
        simp at h
      · rintro ⟨c, -, -, ⟨-, -, rfl, hfollows⟩ | ⟨k, _, _, _, -, heq, hk, -⟩⟩
        · exact absurd (hfollows token rfl) htoken
        · cases heq
          rw [Token.connective?_eq_some_iff.mpr hk] at hword
          cases hword
  | case10 _ column _ operator value condition errors hcondition token tail htoken k hword =>
      rename_i ih
      rw [conditionsThen_cons_iff, walk_map_eq_iff]
      constructor
      · rintro ⟨rfl, others, hothers, rfl⟩
        obtain ⟨c, rfl, -, hc, htable⟩ := conditionOf_eq_iff.mp hcondition
        exact ⟨{ c with joiner := some k }, hc.withJoiner _, htable, .inr ⟨k, token, tail, others,
          rfl, rfl, Token.connective?_eq_some_iff.mp hword, rfl, ih.mp hothers⟩⟩
      · rintro ⟨c, hc, htable, ⟨-, -, rfl, hfollows⟩ |
          ⟨k', _, _, others, hjoiner, heq, hk, rfl, hothers⟩⟩
        · exact absurd (hfollows token rfl) htoken
        · cases heq
          rw [Token.connective?_eq_some_iff.mpr hk] at hword
          cases hword
          rw [conditionOf_eq_iff.mpr
            ⟨{ c with joiner := none }, rfl, rfl, hc.withJoiner none, htable⟩] at hcondition
          cases hcondition
          exact ⟨rfl, others, ih.mpr hothers, by simp [← hjoiner]⟩
  | _ =>
      -- Too few tokens, or none that can start a condition.
      constructor
      · intro h
        simp at h
      · intro h
        obtain ⟨_, _, _, _, htokens, hcolumn⟩ := h.tokens
        simp_all

theorem reads_whereClause_iff {table : String} {tokens rest : List String}
    {cs : List Condition} (hrest : Follows rest) :
    (whereClause (some table)).Reads tokens cs rest ↔
      ∃ front, tokens = front ++ rest ∧ Where front cs ∧
        ∀ c ∈ cs, c.ref.table = table := by
  cases tokens with
  | nil =>
      constructor
      · intro h
        cases h
        exact ⟨[], rfl, .absent, by simp⟩
      · rintro ⟨front, hfront, hwhere, -⟩
        obtain ⟨rfl, rfl⟩ := List.nil_eq_append_iff.mp hfront
        cases hwhere
        rfl
  | cons token tokens =>
      rw [Reads, whereClause]
      split
      · next hword =>
          show (conditions (some table) none).Reads tokens cs rest ↔ _
          rw [reads_conditions_iff]
          constructor
          · rintro ⟨front, rfl, hconditions, htable, -⟩
            exact ⟨token :: front, rfl, .present hword hconditions, htable⟩
          · rintro ⟨front, hfront, hwhere, htable⟩
            cases hwhere with
            | absent =>
                obtain rfl : token :: tokens = rest := hfront
                exact absurd hword (hrest.not_sameWord (by decide))
            | present _ hconditions =>
                obtain ⟨rfl, rfl⟩ := List.cons.inj hfront
                exact ⟨_, rfl, hconditions, htable, hrest⟩
      · next hword =>
          constructor
          · intro h
            cases h
            exact ⟨[], rfl, .absent, by simp⟩
          · rintro ⟨front, hfront, hwhere, htable⟩
            cases hwhere with
            | absent =>
                obtain rfl : token :: tokens = rest := hfront
                rfl
            | present hpresent _ =>
                obtain ⟨rfl, -⟩ := List.cons.inj hfront
                exact absurd hpresent hword

end CsvQuery
