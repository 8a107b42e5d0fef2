/-
Six operators over one order.

A comparison first finds the order of its field and its value and asks the
operator then.  So the operator has no say in whether the comparison fails
(`compareField_eq_error_iff`), and whatever holds of all orders holds of the
answers of the six operators to each other: this is `Comparison.holdsIn`.  What
is left is to see when there is no order, and that exchanging the two sides
reverses it (`exists_fieldOrder`).
-/
import CsvQuery.Proofs.Condition.Literals
import CsvQuery.Proofs.Search.StableSort

namespace CsvQuery

/-! ## The order of two values -/

/-- Two values have no order: one of them is the number that has none. -/
def Incomparable (field value : String) (valueType : Option ValueType) : Prop :=
  valueType = some .float ∧
    (Binary64.read? field = some .nan ∨ Binary64.read? value = some .nan)

theorem Binary64.compare?_eq_none_iff {a b : Binary64} :
    a.compare? b = none ↔ a = .nan ∨ b = .nan := by
  cases a <;> cases b <;> simp [compare?]

section
variable {column field value : String}

theorem fieldOrder_of_text {valueType : Option ValueType}
    (h : valueType = none ∨ valueType = some .string) :
    fieldOrder column field value valueType
      = .ok (some (compare field value)) := by
  rcases h with rfl | rfl <;> rfl

theorem fieldOrder_of_integers {left right : Int}
    (hleft : Integer.read? field = some left)
    (hright : Integer.read? value = some right) :
    fieldOrder column field value (some .int)
      = .ok (some (compare left right)) := by
  show (do
    let left ← readAs Integer.read? .int column field
    let right ← readAs Integer.read? .int column value
    return some (compare left right) : Except ResolveError (Option Ordering)) = _
  rw [readBoth_eq, hleft, hright]

theorem fieldOrder_of_numbers {left right : Binary64}
    (hleft : Binary64.read? field = some left)
    (hright : Binary64.read? value = some right) :
    fieldOrder column field value (some .float)
      = .ok (left.compare? right) := by
  show (do
    let left ← readAs Binary64.read? .float column field
    let right ← readAs Binary64.read? .float column value
    return left.compare? right : Except ResolveError (Option Ordering)) = _
  rw [readBoth_eq, hleft, hright]

end

/-- Exchanging the sides of a comparison reverses their order. -/
theorem exists_fieldOrder (column : String) {field value : String}
    {valueType : Option ValueType}
    (haccepts : ∀ t ∈ valueType, t.accepts field ∧ t.accepts value) :
    ∃ o : Option Ordering, (o = none ↔ Incomparable field value valueType) ∧
      fieldOrder column field value valueType = .ok o ∧
      fieldOrder column value field valueType = .ok (o.map Ordering.swap) := by
  have htext : valueType = none ∨ valueType = some .string →
      ∃ o : Option Ordering, (o = none ↔ Incomparable field value valueType) ∧
        fieldOrder column field value valueType = .ok o ∧
        fieldOrder column value field valueType = .ok (o.map Ordering.swap) := by
    intro h
    have hswap : compare value field = (compare field value).swap :=
      Std.OrientedOrd.eq_swap
    refine ⟨some (compare field value), ?_, fieldOrder_of_text h, ?_⟩
    · rcases h with rfl | rfl <;> simp [Incomparable]
    · rw [fieldOrder_of_text h, hswap]
      rfl
  cases valueType with
  | none => exact htext (.inl rfl)
  | some t =>
      obtain ⟨hfield, hvalue⟩ := haccepts t rfl
      cases t with
      | string => exact htext (.inr rfl)
      | int =>
          obtain ⟨left, hleft⟩ := Option.isSome_iff_exists.mp hfield
          obtain ⟨right, hright⟩ := Option.isSome_iff_exists.mp hvalue
          have hswap : compare right left = (compare left right).swap :=
            Std.OrientedOrd.eq_swap
          refine ⟨some (compare left right), by simp [Incomparable],
            fieldOrder_of_integers hleft hright, ?_⟩
          rw [fieldOrder_of_integers hright hleft, hswap]
          rfl
      | float =>
          obtain ⟨left, hleft⟩ := Option.isSome_iff_exists.mp hfield
          obtain ⟨right, hright⟩ := Option.isSome_iff_exists.mp hvalue
          refine ⟨left.compare? right, ?_, fieldOrder_of_numbers hleft hright, ?_⟩
          · rw [Binary64.compare?_eq_none_iff]
            simp [Incomparable, hleft, hright]
          · rw [fieldOrder_of_numbers hright hleft, left.compare?_swap right]

/-! ## The answers of the operators -/

/-- The operator that says the same of the two sides exchanged. -/
def Comparison.mirrored : Comparison → Comparison
  | .eq => .eq
  | .notEq => .notEq
  | .lt => .gt
  | .ltEq => .gtEq
  | .gt => .lt
  | .gtEq => .ltEq

theorem Comparison.holdsIn_mirrored (operator : Comparison)
    (o : Option Ordering) :
    operator.mirrored.holdsIn (o.map Ordering.swap) = operator.holdsIn o := by
  cases o with
  | none => cases operator <;> rfl
  | some o => cases operator <;> cases o <;> rfl

/-- Answers to two values one of which is less than, equal to or greater than
the other. -/
structure Comparison.Decides (holds : Comparison → Bool) : Prop where
  exactlyOne : [Comparison.lt, .eq, .gt].countP holds = 1
  notEq : holds .notEq = !holds .eq
  ltEq : holds .ltEq = !holds .gt
  gtEq : holds .gtEq = !holds .lt

theorem Comparison.decides_holdsIn (o : Ordering) :
    Decides fun operator => operator.holdsIn o := by
  cases o <;> exact ⟨rfl, rfl, rfl, rfl⟩

theorem Comparison.holdsIn_none {operator : Comparison} :
    operator.holdsIn none = true ↔ operator = .notEq := by
  show (operator == .notEq) = true ↔ _
  exact beq_iff_eq

/-- The six operators agree with each other.  They fail together, exactly if
a side is no value of the declared type, and blame the field before the
value.  If none fails, they decide about two values that have an order, and
find all others different and nothing else; exchanging the sides exchanges
less and greater. -/
theorem operators_agree (column field value : String)
    (valueType : Option ValueType) :
    (∀ e operator,
      compareField column field operator value valueType = .error e ↔
      ∃ t ∈ valueType,
        e = .notOfType column (if t.accepts field then value else field) t ∧
        ¬ (t.accepts field ∧ t.accepts value)) ∧
    ((∀ t ∈ valueType, t.accepts field ∧ t.accepts value) →
      ∃ holds : Comparison → Bool,
        (∀ operator, compareField column field operator value valueType
          = .ok (holds operator)) ∧
        (¬ Incomparable field value valueType → Comparison.Decides holds) ∧
        (Incomparable field value valueType → ∀ operator, holds operator ↔
            operator = .notEq) ∧
        ∀ operator, compareField column value operator.mirrored field valueType
          = .ok (holds operator)) := by
  refine ⟨fun e operator => compareField_eq_error_iff, ?_⟩
  intro haccepts
  obtain ⟨o, hnone, hforth, hback⟩ := exists_fieldOrder column haccepts
  refine ⟨fun operator => operator.holdsIn o, ?_, ?_, ?_, ?_⟩
  · intro operator
    rw [compareField, hforth]
    rfl
  · intro hcomparable
    obtain ⟨order, rfl⟩ := Option.ne_none_iff_exists'.mp (mt hnone.mp hcomparable)
    exact Comparison.decides_holdsIn order
  · intro hincomparable operator
    rw [hnone.mpr hincomparable]
    exact Comparison.holdsIn_none
  · intro operator
    rw [compareField, hback]
    exact congrArg Except.ok (operator.holdsIn_mirrored o)

/-- A number that has no order, and one that has. -/
theorem nan_is_only_different :
    (∀ t ∈ some ValueType.float, t.accepts " NaN" ∧ t.accepts "-1e3") ∧
    Incomparable " NaN" "-1e3" (some .float) ∧
    ∃ holds : Comparison → Bool,
      (∀ operator, compareField "v" " NaN" operator "-1e3" (some .float)
        = .ok (holds operator)) ∧
      ∀ operator, holds operator ↔ operator = .notEq := by
  have haccepts : ∀ t ∈ some ValueType.float, t.accepts " NaN" ∧ t.accepts "-1e3" := by
    rintro t ⟨⟩
    decide +kernel
  have hincomparable : Incomparable " NaN" "-1e3" (some .float) :=
    ⟨rfl, .inl (by decide +kernel)⟩
  obtain ⟨holds, hholds, -, hnan, -⟩ :=
    (operators_agree "v" " NaN" "-1e3" (some .float)).2 haccepts
  exact ⟨haccepts, hincomparable, holds, hholds, hnan hincomparable⟩

end CsvQuery
