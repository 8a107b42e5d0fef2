/-
What the items of a source are to a search.

An item is a row that matches, a row that does not, or a failure: a read that
went wrong, or a row whose conditions cannot be decided.  Both loops of a
search come down to reading some items one after the other: a sorting search
reads all that the deadline lets it, a streaming search only up to the row
that fills its limit.  The rows that match among the items read, or the first
failure among them, are all that the rest of a search depends on.
-/
import CsvQuery.Proofs.Search.StableSort
import CsvQuery.Proofs.Selection.Projection

namespace CsvQuery

theorem atMost_nil {α : Type} (bound : Option Nat) :
    atMost bound ([] : List α) = [] := by
  cases bound <;> simp [atMost]

theorem atMost_none {α : Type} (l : List α) : atMost none l = l := rfl

theorem atMost_zero {α : Type} (l : List α) : atMost (some 0) l = [] := by
  simp [atMost]

theorem atMost_cons {α : Type} {bound : Option Nat} (h : bound ≠ some 0)
    (a : α) (l : List α) :
    atMost bound (a :: l) = a :: atMost (bound.map (· - 1)) l := by
  cases bound with
  | none => rfl
  | some n =>
      obtain ⟨m, rfl⟩ := Nat.exists_eq_succ_of_ne_zero (mt (congrArg some) h)
      simp [atMost]

/-- A window behind an offset is cut from a longer window. -/
theorem drop_atMost {α : Type} (skip : Nat) (room : Option Nat) (l : List α) :
    (atMost (room.map (skip + ·)) l).drop skip = atMost room (l.drop skip) := by
  cases room with
  | none => rfl
  | some m => simp [atMost, List.drop_take]

namespace Job

theorem endWithin_asks_of_ne {budget : Option Nat} (h : budget ≠ some 0)
    (next : Bool → Job) :
    (Job.asks next).endWithin budget
      = (next false).endWithin (budget.map (· - 1)) := by
  match budget, h with
  | none, _ => rfl
  | some (_ + 1), _ => rfl

end Job

namespace Search

section
variable (s : Search)

/-! ## Items -/

/-- Why a search fails at an item, if it does. -/
def failure? : Except SourceError Row → Option QueryError
  | .error e => some (.source e)
  | .ok row =>
    match s.accepts row with
    | .error e => some e
    | .ok _ => none

/-- The row of an item that matches. -/
def match? : Except SourceError Row → Option Row
  | .error _ => none
  | .ok row =>
    match s.accepts row with
    | .ok true => some row
    | _ => none

/-- The matching rows among some items, in their order. -/
def matching (items : RowStream) : List Row := items.filterMap s.match?

/-- The first failure among some items. -/
def firstFailure? (items : RowStream) :
    Option QueryError := items.findSome? s.failure?

/-- The matching rows of items that are all read. -/
def readAll (items : RowStream) : Except QueryError (List Row) :=
  match s.firstFailure? items with
  | some e => .error e
  | none => .ok (s.matching items)

/-- How many matching rows are still wanted behind an item. -/
def boundAfter (item : Except SourceError Row)
    (bound : Option Nat) : Option Nat :=
  if (s.match? item).isSome then bound.map (· - 1) else bound

/-- The items up to the one that brings the matching rows to `bound`: all of
them if so many do not match, or if there is no bound. -/
def upTo : Option Nat → RowStream → RowStream
  | _, [] => []
  | some 0, _ :: _ => []
  | bound, item :: items => item :: upTo (s.boundAfter item bound) items

theorem failure?_ok_eq_some_iff {row : Row} {e : QueryError} :
    s.failure? (.ok row) = some e ↔ s.accepts row = .error e := by
  cases haccepts : s.accepts row <;> simp [failure?, haccepts]

theorem match?_eq_some_iff {item : Except SourceError Row} {row : Row} :
    s.match? item = some row ↔ item = .ok row ∧ s.accepts row = .ok true := by
  cases item with
  | error e => simp [match?]
  | ok row' =>
      have hrow : ∀ b, s.accepts row' = .ok b →
          (s.match? (.ok row') = some row ↔ row' = row ∧ b = true) := by
        intro b haccepts
        cases b <;> simp [match?, haccepts]
      cases haccepts : s.accepts row' with
      | error e =>
          simp only [match?, haccepts, reduceCtorEq, Except.ok.injEq, false_iff,
            not_and]
          rintro rfl
          simp [haccepts]
      | ok b =>
          rw [hrow b haccepts, Except.ok.injEq]
          apply and_congr_right
          rintro rfl
          rw [haccepts, Except.ok.injEq]

/-- An item that neither fails nor matches is a row that the conditions
refuse. -/
theorem exists_of_passes {item : Except SourceError Row}
    (hfailure : s.failure? item = none) (hmatch : s.match? item = none) :
    ∃ row, item = .ok row ∧ s.accepts row = .ok false := by
  cases item with
  | error e => cases hfailure
  | ok row =>
      refine ⟨row, rfl, ?_⟩
      cases haccepts : s.accepts row with
      | error e => simp [failure?, haccepts] at hfailure
      | ok b => cases b <;> simp_all [match?]

theorem failure?_of_match? {item : Except SourceError Row} {row : Row}
    (h : s.match? item = some row) : s.failure? item = none := by
  obtain ⟨rfl, haccepts⟩ := s.match?_eq_some_iff.mp h
  rw [failure?, haccepts]

theorem matching_cons_none {item : Except SourceError Row}
    (h : s.match? item = none) (items : RowStream) :
    s.matching (item :: items) = s.matching items :=
  List.filterMap_cons_none h

theorem matching_cons_some {item : Except SourceError Row} {row : Row}
    (h : s.match? item = some row) (items : RowStream) :
    s.matching (item :: items) = row :: s.matching items :=
  List.filterMap_cons_some h

theorem firstFailure?_cons_some {item : Except SourceError Row} {e : QueryError}
    (h : s.failure? item = some e) (items : RowStream) :
    s.firstFailure? (item :: items) = some e :=
  (List.findSome?_cons_of_isSome (by simp [h])).trans h

theorem firstFailure?_cons_none {item : Except SourceError Row}
    (h : s.failure? item = none) (items : RowStream) :
    s.firstFailure? (item :: items) = s.firstFailure? items :=
  List.findSome?_cons_of_isNone (by simp [h])

theorem boundAfter_of_none {item : Except SourceError Row}
    (h : s.match? item = none) (bound : Option Nat) :
    s.boundAfter item bound = bound := by
  simp [boundAfter, h]

theorem boundAfter_of_some {item : Except SourceError Row} {row : Row}
    (h : s.match? item = some row) (bound : Option Nat) :
    s.boundAfter item bound = bound.map (· - 1) := by
  simp [boundAfter, h]

theorem readAll_nil : s.readAll [] = .ok [] := rfl

theorem readAll_cons_of_failure {item : Except SourceError Row} {e : QueryError}
    (h : s.failure? item = some e) (items : RowStream) :
    s.readAll (item :: items) = .error e := by
  rw [readAll, s.firstFailure?_cons_some h]

theorem readAll_cons_none {item : Except SourceError Row}
    (hfailure : s.failure? item = none) (hmatch : s.match? item = none)
    (items : RowStream) :
    s.readAll (item :: items) = s.readAll items := by
  rw [readAll, s.firstFailure?_cons_none hfailure, s.matching_cons_none hmatch, readAll]

theorem readAll_cons_some {item : Except SourceError Row} {row : Row}
    (hmatch : s.match? item = some row) (items : RowStream) :
    s.readAll (item :: items) = (s.readAll items).map (row :: ·) := by
  rw [readAll, s.firstFailure?_cons_none (s.failure?_of_match? hmatch),
    s.matching_cons_some hmatch, readAll]
  cases s.firstFailure? items <;> rfl

theorem readAll_eq_ok_iff {items : RowStream} {found : List Row} :
    s.readAll items = .ok found ↔
      s.firstFailure? items = none ∧ s.matching items = found := by
  unfold readAll
  cases s.firstFailure? items <;> simp

theorem readAll_eq_error_iff {items : RowStream} {e : QueryError} :
    s.readAll items = .error e ↔ s.firstFailure? items = some e := by
  unfold readAll
  cases s.firstFailure? items <;> simp

/-! ## The items that are read -/

theorem upTo_zero (items : RowStream) : s.upTo (some 0) items = [] := by
  cases items <;> rfl

theorem upTo_cons {bound : Option Nat} (h : bound ≠ some 0)
    (item : Except SourceError Row) (items : RowStream) :
    s.upTo bound (item :: items)
      = item :: s.upTo (s.boundAfter item bound) items := by
  match bound, h with
  | none, _ => rfl
  | some (_ + 1), _ => rfl

theorem firstFailure?_of_prefix {items items' : RowStream}
    (h : items <+: items')
    (hnone : s.firstFailure? items' = none) : s.firstFailure? items = none := by
  obtain ⟨rest, rfl⟩ := h
  rw [firstFailure?, List.findSome?_append] at hnone
  exact (Option.or_eq_none_iff.mp hnone).1

theorem upTo_prefix_self (bound : Option Nat) (items : RowStream) :
    s.upTo bound items <+: items := by
  induction items generalizing bound with
  | nil => exact List.nil_prefix
  | cons item items ih =>
      by_cases hbound : bound = some 0
      · subst hbound
        rw [upTo_zero]
        exact List.nil_prefix
      · rw [s.upTo_cons hbound]
        exact (List.prefix_cons_inj item).mpr (ih _)

theorem upTo_prefix {items items' : RowStream} (bound : Option Nat)
    (h : items <+: items') :
    s.upTo bound items <+: s.upTo bound items' := by
  induction items generalizing items' bound with
  | nil => exact List.nil_prefix
  | cons item items ih =>
      obtain ⟨rest, rfl⟩ := h
      by_cases hbound : bound = some 0
      · subst hbound
        rw [upTo_zero]
        exact List.nil_prefix
      · rw [List.cons_append, s.upTo_cons hbound, s.upTo_cons hbound]
        exact (List.prefix_cons_inj item).mpr (ih _ ⟨rest, rfl⟩)

/-- The matching rows among the items read are the first ones of the source. -/
theorem matching_upTo (bound : Option Nat) (items : RowStream) :
    s.matching (s.upTo bound items) = atMost bound (s.matching items) := by
  induction items generalizing bound with
  | nil => exact (atMost_nil bound).symm
  | cons item items ih =>
      by_cases hbound : bound = some 0
      · subst hbound
        rw [upTo_zero, atMost_zero]
        rfl
      · rw [s.upTo_cons hbound]
        cases hmatch : s.match? item with
        | none =>
            rw [s.matching_cons_none hmatch, s.matching_cons_none hmatch,
              s.boundAfter_of_none hmatch, ih]
        | some row =>
            rw [s.matching_cons_some hmatch, s.matching_cons_some hmatch,
              s.boundAfter_of_some hmatch, ih, atMost_cons hbound]

/-- Reading less of a source that can all be read. -/
theorem readAll_upTo {items : RowStream} {found : List Row}
    (h : s.readAll items = .ok found) (bound : Option Nat) :
    s.readAll (s.upTo bound items) = .ok (atMost bound found) := by
  obtain ⟨hnone, rfl⟩ := s.readAll_eq_ok_iff.mp h
  rw [readAll_eq_ok_iff]
  exact ⟨s.firstFailure?_of_prefix (s.upTo_prefix_self bound items) hnone,
    s.matching_upTo bound items⟩

/-- Some item fails before the matching rows have come to `bound`, and no item
in front of it fails. -/
def FailsBefore (bound : Option Nat) (items : RowStream)
    (e : QueryError) : Prop :=
  ∃ front item back, items = front ++ item :: back ∧ s.firstFailure? front = none ∧
    s.failure? item = some e ∧ ∀ n ∈ bound, (s.matching front).length < n

theorem not_failsBefore_zero (items : RowStream) (e : QueryError) :
    ¬ s.FailsBefore (some 0) items e := by
  rintro ⟨front, item, back, -, -, -, hroom⟩
  exact absurd (hroom 0 rfl) (Nat.not_lt_zero _)

theorem failsBefore_cons_of_failure {bound : Option Nat}
    (hbound : bound ≠ some 0) {item : Except SourceError Row} {e : QueryError}
    (h : s.failure? item = some e) {items : RowStream} {e' : QueryError} :
    s.FailsBefore bound (item :: items) e' ↔ e = e' := by
  constructor
  · rintro ⟨front, item', back, hitems, hfront, hfailure, -⟩
    cases front with
    | nil =>
        cases hitems
        exact Option.some.inj (h.symm.trans hfailure)
    | cons first front =>
        cases hitems
        rw [s.firstFailure?_cons_some h] at hfront
        cases hfront
  · rintro rfl
    refine ⟨[], item, items, rfl, rfl, h, ?_⟩
    intro n hn
    exact Nat.pos_of_ne_zero fun hzero => hbound (hzero ▸ hn)

/-- An item takes as much of the bound as it adds to the matching rows. -/
theorem length_matching_cons_lt_iff {bound : Option Nat}
    (hbound : bound ≠ some 0) (item : Except SourceError Row)
    (items : RowStream) :
    (∀ n ∈ bound, (s.matching (item :: items)).length < n) ↔
      ∀ n ∈ s.boundAfter item bound, (s.matching items).length < n := by
  cases hmatch : s.match? item with
  | none => rw [s.matching_cons_none hmatch, s.boundAfter_of_none hmatch]
  | some row =>
      rw [s.matching_cons_some hmatch, s.boundAfter_of_some hmatch]
      cases bound with
      | none => simp
      | some n =>
          have hn : n ≠ 0 := fun hzero => hbound (congrArg some hzero)
          simp only [Option.mem_def, Option.some.injEq, forall_eq', List.length_cons,
            Option.map_some]
          omega

theorem failsBefore_cons {bound : Option Nat} (hbound : bound ≠ some 0)
    {item : Except SourceError Row} (h : s.failure? item = none)
    {items : RowStream} {e : QueryError} :
    s.FailsBefore bound (item :: items) e ↔
      s.FailsBefore (s.boundAfter item bound) items e := by
  constructor
  · rintro ⟨front, item', back, hitems, hfront, hfailure, hless⟩
    cases front with
    | nil =>
        cases hitems
        rw [h] at hfailure
        cases hfailure
    | cons first front =>
        cases hitems
        rw [s.firstFailure?_cons_none h] at hfront
        exact ⟨front, item', back, rfl, hfront, hfailure,
          (s.length_matching_cons_lt_iff hbound item front).mp hless⟩
  · rintro ⟨front, item', back, rfl, hfront, hfailure, hless⟩
    exact ⟨item :: front, item', back, rfl, (s.firstFailure?_cons_none h front).trans hfront,
      hfailure, (s.length_matching_cons_lt_iff hbound item front).mpr hless⟩

theorem firstFailure?_upTo_iff {items : RowStream} {e : QueryError}
    (bound : Option Nat) :
    s.firstFailure? (s.upTo bound items) = some e ↔
      s.FailsBefore bound items e := by
  induction items generalizing bound with
  | nil =>
      constructor
      · intro h
        cases h
      · rintro ⟨front, item, back, hitems, -⟩
        cases front <;> cases hitems
  | cons item items ih =>
      by_cases hbound : bound = some 0
      · subst hbound
        rw [upTo_zero]
        constructor
        · intro h
          cases h
        · intro h
          exact absurd h (s.not_failsBefore_zero _ _)
      · rw [s.upTo_cons hbound]
        cases hfailure : s.failure? item with
        | some e' =>
            rw [s.firstFailure?_cons_some hfailure,
              s.failsBefore_cons_of_failure hbound hfailure]
            exact Option.some_inj
        | none =>
            rw [s.firstFailure?_cons_none hfailure, s.failsBefore_cons hbound hfailure]
            exact ih _

end
end Search
end CsvQuery
