/-
Why a condition of an accepted query cannot be decided.

A value is read at two moments far apart: when the query is, to see whether it
is one of the declared type, and again whenever the condition meets a row.  As
`ValueType.accepts` asks the reader that the comparison uses, what was accepted
then is read now (`compareField_eq_error`), and only the field is left to blame.
-/
import CsvQuery.Proofs.Condition.Evaluation
import CsvQuery.Proofs.Query.Language
import CsvQuery.Proofs.Selection.Projection
import Mathlib.Data.List.SplitBy

namespace CsvQuery

/-! ## Comparing a field with a value of the declared type -/

section
variable {column field value : String} {e : ResolveError}

/-- The field is read before the value, and the first side that cannot be
read is blamed. -/
theorem readBoth_eq {α β : Type} (read? : String → Option α) (t : ValueType)
    (f : α → α → β) :
    (do
      let left ← readAs read? t column field
      let right ← readAs read? t column value
      return f left right : Except ResolveError β)
      = match read? field, read? value with
        | none, _ => .error (.notOfType column field t)
        | some _, none => .error (.notOfType column value t)
        | some left, some right => .ok (f left right) := by
  unfold readAs
  cases read? field with
  | none => rfl
  | some left => cases read? value <;> rfl

/-- A comparison of two readable sides has an outcome, any other one an
error. -/
theorem readBoth_eq_error_iff {α β : Type} {read? : String → Option α}
    {t : ValueType} {f : α → α → β} :
    (do
      let left ← readAs read? t column field
      let right ← readAs read? t column value
      return f left right : Except ResolveError β) = .error e ↔
      e = .notOfType column (if (read? field).isSome then value else field) t ∧
        ¬ ((read? field).isSome ∧ (read? value).isSome) := by
  rw [readBoth_eq]
  cases read? field with
  | none => simp [eq_comm (b := e)]
  | some left => cases read? value <;> simp [eq_comm (b := e)]

theorem fieldOrder_eq_error_iff {valueType : Option ValueType} :
    fieldOrder column field value valueType = .error e ↔
      ∃ t ∈ valueType,
        e = .notOfType column (if t.accepts field then value else field) t ∧
        ¬ (t.accepts field ∧ t.accepts value) := by
  cases valueType with
  | none => simp [fieldOrder]
  | some t =>
      simp only [Option.mem_some_iff, exists_eq_left']
      cases t with
      | int => exact readBoth_eq_error_iff
      | float => exact readBoth_eq_error_iff
      | string => simp [fieldOrder, ValueType.accepts]

/-- A comparison fails with the same error under every operator. -/
theorem compareField_eq_error_iff {operator : Comparison}
    {valueType : Option ValueType} :
    compareField column field operator value valueType = .error e ↔
      ∃ t ∈ valueType,
        e = .notOfType column (if t.accepts field then value else field) t ∧
        ¬ (t.accepts field ∧ t.accepts value) := by
  rw [← fieldOrder_eq_error_iff, compareField]
  cases fieldOrder column field value valueType with
  | error e' => simp [Except.map]
  | ok o => simp [Except.map]

/-- A value of the declared type cannot make a comparison fail. -/
theorem compareField_eq_error {operator : Comparison}
    {valueType : Option ValueType} (hvalue : ∀ t ∈ valueType, t.accepts value)
    (h : compareField column field operator value valueType = .error e) :
    ∃ t ∈ valueType,
      e = .notOfType column field t ∧ t.accepts field = false := by
  obtain ⟨t, ht, he, hunreadable⟩ := compareField_eq_error_iff.mp h
  have hfield : t.accepts field = false := by
    rw [← Bool.not_eq_true]
    exact fun hfield => hunreadable ⟨hfield, hvalue t ht⟩
  rw [hfield] at he
  exact ⟨t, ht, he, hfield⟩

end

/-! ## Conditions that are reached -/

theorem exists_condition_of_mem_groups {cs : List Condition}
    {group : List Predicate} {p : Predicate}
    (hgroup : group ∈ Condition.groups cs) (hp : p ∈ group) :
    ∃ c ∈ cs, c.predicate = p := by
  obtain ⟨conditions, hconditions, rfl⟩ := List.mem_map.mp hgroup
  obtain ⟨c, hc, rfl⟩ := List.mem_map.mp hp
  refine ⟨c, ?_, rfl⟩
  rw [← List.flatten_splitBy Condition.groupedWith cs]
  exact List.mem_flatten_of_mem hconditions hc

/-- A where clause that cannot be decided has a condition that cannot. -/
theorem exists_condition_of_holds_eq_error {cs : List Condition}
    {index : ColumnIndex} {row : Row} {e : ResolveError}
    (h : (Chain.ofConditions cs).holds index row = .error e) :
    ∃ c ∈ cs, c.predicate.holds index row = .error e := by
  rw [Chain.holds_ofConditions] at h
  split at h
  · cases h
  · obtain ⟨front, group, back, hgroups, -, hgroup⟩ := (anyHolds_eq_iff (by simp)).mp h
    obtain ⟨before, p, after, rfl, -, hp⟩ := (allHold_eq_iff (by simp)).mp hgroup
    have hmem : before ++ p :: after ∈ Condition.groups cs := by
      rw [hgroups]
      exact List.mem_append_right _ List.mem_cons_self
    obtain ⟨c, hc, rfl⟩ := exists_condition_of_mem_groups hmem
      (List.mem_append_right _ List.mem_cons_self)
    exact ⟨c, hc, hp⟩

/-- A predicate that stops at a type has met a field of its column. -/
theorem Predicate.holds_eq_notOfType {index : ColumnIndex} {row : Row}
    {p : Predicate} {column text : String} {t : ValueType}
    (h : p.holds index row = .error (.notOfType column text t)) :
    ∃ position field, index.position? p.column = some position ∧
      row[position]? = some field ∧
      compareField p.column field p.operator p.value p.valueType
        = .error (.notOfType column text t) := by
  unfold Predicate.holds at h
  cases hposition : index.position? p.column with
  | none =>
      rw [hposition] at h
      cases h
  | some position =>
      rw [hposition] at h
      dsimp only at h
      cases hfield : row[position]? with
      | none =>
          rw [hfield] at h
          cases h
      | some field =>
          rw [hfield] at h
          exact ⟨position, field, rfl, hfield, h⟩

/-! ## Accepted queries -/

theorem Grammar.Conditions.accepts {tokens : List String}
    {cs : List Condition} (h : Grammar.Conditions tokens cs) :
    ∀ c ∈ cs, ∀ t ∈ c.valueType, t.accepts c.value := by
  induction h with
  | last hc _ =>
      intro c' hc'
      obtain rfl := List.mem_singleton.mp hc'
      exact hc.accepted
  | more hc _ _ _ ih =>
      intro c' hc'
      rcases List.mem_cons.mp hc' with rfl | hc'
      · exact hc.accepted
      · exact ih c' hc'

theorem accepts_of_ofTokens {files : Files} {tokens : List String} {q : Query}
    (h : Query.ofTokens files tokens = .ok q) :
    ∀ c ∈ q.conditions, ∀ t ∈ c.valueType, t.accepts c.value := by
  obtain ⟨-, hwhere, -⟩ := spells_of_ofTokens h
  cases hwhere with
  | absent => exact fun _ hc => absurd hc List.not_mem_nil
  | present _ hconditions => exact hconditions.accepts

/-- A condition cannot be decided because of the field it has met: the field
is in the first column of that name and no value of the declared type, which
the condition's own value is. -/
structure Condition.Blames (c : Condition) (h : Header) (row : Row)
    (column field : String) (t : ValueType) : Prop where
  names : c.ref.column = column
  typed : c.valueType = some t
  met : ∃ position, h.position? column = some position ∧
    row[position]? = some field
  unreadable : t.accepts field = false
  readable : t.accepts c.value = true

/-- Evaluating the conditions of an accepted query stops at a type only at a
field that is no value of it.  Whatever field a condition meets, its own
value is never what a comparison fails at. -/
theorem accepted_values_never_fail {files : Files} {tokens : List String}
    {q : Query} (accepted : Query.ofTokens files tokens = .ok q) :
    (∀ (h : Header) (row : Row) (column field : String) (t : ValueType),
      (Chain.ofConditions q.conditions).holds (.ofHeader h) row
          = .error (.notOfType column field t) →
        ∃ c ∈ q.conditions, c.Blames h row column field t) ∧
    ∀ c ∈ q.conditions, ∀ (field : String) (e : ResolveError),
      compareField c.ref.column field c.operator c.value c.valueType
        = .error e →
        ∃ t ∈ c.valueType,
          e = .notOfType c.ref.column field t ∧ t.accepts field = false ∧
          t.accepts c.value = true := by
  have hvalues := accepts_of_ofTokens accepted
  have hcompare : ∀ c ∈ q.conditions, ∀ (field : String) (e : ResolveError),
      compareField c.ref.column field c.operator c.value c.valueType = .error e →
        ∃ t ∈ c.valueType, e = .notOfType c.ref.column field t ∧ t.accepts field = false ∧
          t.accepts c.value = true := by
    intro c hc field e h
    obtain ⟨t, ht, he, hfield⟩ := compareField_eq_error (hvalues c hc) h
    exact ⟨t, ht, he, hfield, hvalues c hc t ht⟩
  refine ⟨?_, hcompare⟩
  intro h row column text t hstop
  obtain ⟨c, hc, hholds⟩ := exists_condition_of_holds_eq_error hstop
  obtain ⟨position, field, hposition, hfield, hfails⟩ :=
    Predicate.holds_eq_notOfType hholds
  obtain ⟨t', ht', he, hunreadable, hvalue⟩ := hcompare c hc field _ hfails
  cases he
  rw [ColumnIndex.position?_ofHeader] at hposition
  exact ⟨c, hc, rfl, ht', ⟨position, hposition, hfield⟩, hunreadable, hvalue⟩

/-- The number 2^63 is the first field of a column `n` of integers.  The
value has blanks and a sign, and the second field of that name is an
integer. -/
theorem field_beyond_integers_is_blamed :
    let tokens := ["SELECT", "*", "FROM", "path:t.csv", "AS", "e", "WHERE",
      "'e.k'", "=", "'x'",
      "and", "'e.n'::int", "<", "' +7 '"]
    let h : Header := ⟨⟨"t.csv"⟩, ["k", "n", "n"]⟩
    let row : Row := ["x", "9223372036854775808", "1"]
    ∃ q, Query.ofTokens (fun _ => .ok (.file [])) tokens = .ok q ∧
      (Chain.ofConditions q.conditions).holds (.ofHeader h) row
          = .error (.notOfType "n" "9223372036854775808" .int) ∧
        ∃ c ∈ q.conditions, c.Blames h row "n" "9223372036854775808" .int := by
  intro tokens h row
  have haccepted : Query.ofTokens (fun _ => .ok (.file [])) tokens
      = .ok { select := [.all], path := ⟨"t.csv"⟩, table := "e",
              conditions :=
                [{ ref := ⟨"e", "k"⟩, valueType := none, operator := .eq, value := "x",
                   joiner := some .and },
                 { ref := ⟨"e", "n"⟩, valueType := some .int, operator := .lt, value := " +7 ",
                   joiner := none }],
              constraints := {} } :=
    ofTokens_eq_ok (by decide +kernel) (by decide +kernel)
  have hstops :=
    (accepted_values_never_fail haccepted).1 h row "n" "9223372036854775808" .int
  have hholds : (Chain.ofConditions
      [{ ref := ⟨"e", "k"⟩, valueType := none, operator := .eq, value := "x",
         joiner := some .and },
       { ref := ⟨"e", "n"⟩, valueType := some .int, operator := .lt, value := " +7 ",
         joiner := none }]).holds (.ofHeader h) row
      = .error (.notOfType "n" "9223372036854775808" .int) := by
    decide +kernel
  exact ⟨_, haccepted, hholds, hstops hholds⟩

end CsvQuery
