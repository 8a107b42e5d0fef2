/-
The order of two fields in a sort.

Two fields are compared by the first rule that fits both of them: as integers,
as numbers, or as text.  The rule is chosen pair by pair, so what is an order
within each rule need not be one across them.  A column is in order as a whole
unless one rule contradicts another on it, and there are two ways in which it
can: a text that is no number lies between two numbers that the order of text
has the other way round (`StandsBetween`), or a number that is no integer ties
with two different integers, being the double nearest to both (`Absorbs`).
-/
import CsvQuery.Proofs.Number.Ranks
import CsvQuery.Proofs.Search.StableSort
import Mathlib.Data.Set.Basic
import Mathlib.Data.String.Basic

namespace CsvQuery

open Binary64 (rank? rankOfInteger rankOfInteger_mono rank?_of_integer)

/-! ## Which rule decides -/

section
variable {left right : String}

theorem floatOrder?_eq (left right : String) :
    floatOrder? left right
      = (rank? left).bind fun a => (rank? right).map (compare a) := by
  unfold floatOrder? Binary64.rank?
  cases Binary64.read? left with
  | none => rfl
  | some l =>
      cases Binary64.read? right with
      | none => cases l <;> rfl
      | some r => cases l <;> cases r <;> rfl

theorem sortCompare_of_integers {i j : Int}
    (hleft : Integer.read? left = some i)
    (hright : Integer.read? right = some j) :
    sortCompare left right = compare i j := by
  rw [sortCompare, hleft, hright]

/-- Without two integers numbers are compared, if there are two. -/
theorem sortCompare_of_not_integers
    (h : Integer.read? left = none ∨ Integer.read? right = none) :
    sortCompare left right
      = (floatOrder? left right).getD (compare left right) := by
  unfold sortCompare
  rcases h with h | h
  · rw [h]
    cases floatOrder? left right <;> rfl
  · rw [h]
    cases Integer.read? left <;> cases floatOrder? left right <;> rfl

theorem sortCompare_of_numbers
    (h : Integer.read? left = none ∨ Integer.read? right = none) {a b : Int}
    (hleft : rank? left = some a) (hright : rank? right = some b) :
    sortCompare left right = compare a b := by
  rw [sortCompare_of_not_integers h, floatOrder?_eq, hleft, hright]
  rfl

theorem not_integer_of_rank?_eq_none {s : String} (h : rank? s = none) :
    Integer.read? s = none := by
  cases hread : Integer.read? s with
  | none => rfl
  | some i =>
      rw [rank?_of_integer hread] at h
      cases h

theorem sortCompare_of_text (h : rank? left = none ∨ rank? right = none) :
    sortCompare left right = compare left right := by
  have hnone : floatOrder? left right = none := by
    rw [floatOrder?_eq]
    rcases h with h | h
    · rw [h]
      rfl
    · rw [h]
      cases rank? left <;> rfl
  rw [sortCompare_of_not_integers (h.imp not_integer_of_rank?_eq_none
    not_integer_of_rank?_eq_none), hnone]
  rfl

theorem sortCompare_ne_gt_of_text (h : rank? left = none ∨ rank? right = none) :
    sortCompare left right ≠ .gt ↔ left ≤ right := by
  rw [sortCompare_of_text h]
  exact compare_le_iff_le

/-- Of two numbers in order the second one is as far up among the doubles. -/
theorem rank_le_of_sortCompare {a b : Int} (hleft : rank? left = some a)
    (hright : rank? right = some b)
    (h : sortCompare left right ≠ .gt) : a ≤ b := by
  by_cases hintegers : Integer.read? left = none ∨ Integer.read? right = none
  · rw [sortCompare_of_numbers hintegers hleft hright] at h
    exact compare_le_iff_le.mp h
  · rw [not_or] at hintegers
    obtain ⟨i, hi⟩ := Option.ne_none_iff_exists'.mp hintegers.1
    obtain ⟨j, hj⟩ := Option.ne_none_iff_exists'.mp hintegers.2
    rw [rank?_of_integer hi, Option.some.injEq] at hleft
    rw [rank?_of_integer hj, Option.some.injEq] at hright
    rw [sortCompare_of_integers hi hj] at h
    rw [← hleft, ← hright]
    exact rankOfInteger_mono (compare_le_iff_le.mp h)

end

/-! ## Columns in order -/

/-- On some values a comparison answers for both directions, so that of any
two one is not behind the other, and is transitive. -/
structure TotalPreorderOn {α : Type} (cmp : α → α → Ordering)
    (values : Set α) : Prop where
  oriented : ∀ a ∈ values, ∀ b ∈ values, cmp b a = (cmp a b).swap
  trans : ∀ a ∈ values, ∀ b ∈ values, ∀ c ∈ values,
    cmp a b ≠ .gt → cmp b c ≠ .gt → cmp a c ≠ .gt

/-- Comparing keys is one. -/
theorem TotalPreorderOn.of_key {α β : Type} [LinearOrder β]
    {cmp : α → α → Ordering} {values : Set α} (key : α → β)
    (h : ∀ a ∈ values, ∀ b ∈ values, cmp a b = compare (key a) (key b)) :
    TotalPreorderOn cmp values where
  oriented := by
    intro a ha b hb
    rw [h a ha b hb, h b hb a ha]
    exact Std.OrientedOrd.eq_swap
  trans := by
    intro a ha b hb c hc hab hbc
    rw [h a ha b hb, compare_le_iff_le] at hab
    rw [h b hb c hc, compare_le_iff_le] at hbc
    rw [h a ha c hc, compare_le_iff_le]
    exact hab.trans hbc

/-- In the order of text a text that is no number stands between two numbers,
`high` in front of it and `low` behind it, although `low` is the smaller
number or ties with `high`. -/
structure StandsBetween (text low high : String) : Prop where
  noNumber : rank? text = none
  lowNumber : (rank? low).isSome
  highNumber : (rank? high).isSome
  inOrder : sortCompare low high ≠ .gt
  before : high < text
  behind : text < low

/-- A number that is no integer is the double nearest to two different
integers. -/
structure Absorbs (number low high : String) : Prop where
  noInteger : Integer.read? number = none
  integers : ∃ i j, Integer.read? low = some i ∧
    Integer.read? high = some j ∧ i < j
  lowRank : rank? low = rank? number
  highRank : rank? high = rank? number

theorem sortCompare_trans_of_text {l m r : String}
    (hlm : rank? l = none ∨ rank? m = none)
    (hmr : rank? m = none ∨ rank? r = none)
    (hlr : rank? l = none ∨ rank? r = none) (hl : sortCompare l m ≠ .gt)
    (hr : sortCompare m r ≠ .gt) : sortCompare l r ≠ .gt := by
  rw [sortCompare_ne_gt_of_text hlm] at hl
  rw [sortCompare_ne_gt_of_text hmr] at hr
  rw [sortCompare_ne_gt_of_text hlr]
  exact String.le_trans hl hr

/-- A number and a text that is none do not tie. -/
theorem lt_of_sortCompare {l r : String}
    (h : (rank? l).isSome ≠ (rank? r).isSome)
    (hle : sortCompare l r ≠ .gt) : l < r := by
  have hnone : rank? l = none ∨ rank? r = none := by
    cases hl : rank? l with
    | none => exact .inl rfl
    | some a =>
        cases hr : rank? r with
        | none => exact .inr rfl
        | some b => simp [hl, hr] at h
  rw [sortCompare_ne_gt_of_text hnone] at hle
  refine lt_of_le_of_ne hle ?_
  rintro rfl
  exact h rfl

theorem sortCompare_reverse {l r : String} (h : sortCompare l r = .gt) :
    sortCompare r l = .lt := by
  rw [sortCompare_swap l r, h]
  rfl

/-- Three numbers in a row are in order if the one in the middle absorbs
nothing. -/
theorem sortCompare_trans_of_numbers {l m r : String} {a b c : Int}
    (ha : rank? l = some a) (hb : rank? m = some b) (hc : rank? r = some c)
    (habsorbs : ¬ Absorbs m r l) (hl : sortCompare l m ≠ .gt)
    (hr : sortCompare m r ≠ .gt) : sortCompare l r ≠ .gt := by
  have hab : a ≤ b := rank_le_of_sortCompare ha hb hl
  have hbc : b ≤ c := rank_le_of_sortCompare hb hc hr
  intro hgt
  by_cases hintegers : Integer.read? l = none ∨ Integer.read? r = none
  · rw [sortCompare_of_numbers hintegers ha hc] at hgt
    exact absurd (hab.trans hbc) (not_le.mpr (compare_gt_iff_gt.mp hgt))
  · rw [not_or] at hintegers
    obtain ⟨i, hi⟩ := Option.ne_none_iff_exists'.mp hintegers.1
    obtain ⟨j, hj⟩ := Option.ne_none_iff_exists'.mp hintegers.2
    rw [sortCompare_of_integers hi hj] at hgt
    have hji : j < i := compare_gt_iff_gt.mp hgt
    cases hm : Integer.read? m with
    | some k =>
        rw [sortCompare_of_integers hi hm] at hl
        rw [sortCompare_of_integers hm hj] at hr
        have hik : i ≤ k := compare_le_iff_le.mp hl
        have hkj : k ≤ j := compare_le_iff_le.mp hr
        omega
    | none =>
        -- The larger integer is not below the smaller one, so all three ranks
        -- are one.
        have hca : c ≤ a := by
          rw [rank?_of_integer hi, Option.some.injEq] at ha
          rw [rank?_of_integer hj, Option.some.injEq] at hc
          rw [← ha, ← hc]
          exact rankOfInteger_mono hji.le
        obtain rfl : a = b := by omega
        obtain rfl : a = c := by omega
        exact habsorbs ⟨hm, ⟨j, i, hj, hi, hji⟩, hc.trans hb.symm, ha.trans hb.symm⟩

/-- Three values in a row are in order if none of them stands between the
others or absorbs them. -/
theorem sortCompare_trans {l m r : String}
    (hbetween : ¬ StandsBetween l m r ∧
      ¬ StandsBetween m r l ∧ ¬ StandsBetween r l m)
    (habsorbs : ¬ Absorbs m r l) (hl : sortCompare l m ≠ .gt)
    (hr : sortCompare m r ≠ .gt) : sortCompare l r ≠ .gt := by
  obtain ⟨hleft, hmiddle, hright⟩ := hbetween
  cases ha : rank? l with
  | none =>
      cases hb : rank? m with
      | none => exact sortCompare_trans_of_text (.inl ha) (.inl hb) (.inl ha) hl hr
      | some b =>
          cases hc : rank? r with
          | none => exact sortCompare_trans_of_text (.inl ha) (.inr hc) (.inl ha) hl hr
          | some c =>
              intro hgt
              have hlm : l < m := lt_of_sortCompare (by simp [ha, hb]) hl
              have hrl : r < l := lt_of_sortCompare (by simp [ha, hc])
                (by simp [sortCompare_reverse hgt])
              exact hleft ⟨ha, by simp [hb], by simp [hc], hr, hrl, hlm⟩
  | some a =>
      cases hb : rank? m with
      | none =>
          cases hc : rank? r with
          | none => exact sortCompare_trans_of_text (.inr hb) (.inl hb) (.inr hc) hl hr
          | some c =>
              intro hgt
              have hlm : l < m := lt_of_sortCompare (by simp [ha, hb]) hl
              have hmr : m < r := lt_of_sortCompare (by simp [hb, hc]) hr
              exact hmiddle ⟨hb, by simp [hc], by simp [ha],
                by simp [sortCompare_reverse hgt], hlm, hmr⟩
      | some b =>
          cases hc : rank? r with
          | none =>
              intro hgt
              have hmr : m < r := lt_of_sortCompare (by simp [hb, hc]) hr
              have hrl : r < l := lt_of_sortCompare (by simp [ha, hc])
                (by simp [sortCompare_reverse hgt])
              exact hright ⟨hc, by simp [ha], by simp [hb], hl, hmr, hrl⟩
          | some c => exact sortCompare_trans_of_numbers ha hb hc habsorbs hl hr

theorem StandsBetween.breaks {text low high : String}
    (h : StandsBetween text low high) :
    sortCompare text low ≠ .gt ∧ sortCompare low high ≠ .gt ∧
    sortCompare text high = .gt := by
  refine ⟨?_, h.inOrder, ?_⟩
  · rw [sortCompare_ne_gt_of_text (.inl h.noNumber)]
    exact h.behind.le
  · rw [sortCompare_of_text (.inl h.noNumber)]
    exact compare_gt_iff_gt.mpr h.before

theorem Absorbs.breaks {number low high : String}
    (h : Absorbs number low high) :
    sortCompare high number ≠ .gt ∧ sortCompare number low ≠ .gt ∧
      sortCompare high low = .gt := by
  obtain ⟨i, j, hi, hj, hij⟩ := h.integers
  have hlow : rank? low = some (rankOfInteger i) := rank?_of_integer hi
  have hnumber : rank? number = some (rankOfInteger i) := h.lowRank ▸ hlow
  have hhigh : rank? high = some (rankOfInteger i) := h.highRank.trans hnumber
  refine ⟨?_, ?_, ?_⟩
  · rw [sortCompare_of_numbers (.inr h.noInteger) hhigh hnumber]
    exact compare_le_iff_le.mpr le_rfl
  · rw [sortCompare_of_numbers (.inl h.noInteger) hnumber hlow]
    exact compare_le_iff_le.mpr le_rfl
  · rw [sortCompare_of_integers hj hi]
    exact compare_gt_iff_gt.mpr hij

/-- A column is in order as a whole exactly if on its values no two rules
contradict each other. -/
theorem sortCompare_totalPreorderOn_iff (values : Set String) :
    TotalPreorderOn sortCompare values ↔
      ∀ low ∈ values, ∀ high ∈ values, ∀ value ∈ values,
        ¬ StandsBetween value low high ∧ ¬ Absorbs value low high := by
  constructor
  · intro h low hlow high hhigh value hvalue
    constructor
    · intro hbetween
      obtain ⟨htext, hnumbers, hgt⟩ := hbetween.breaks
      exact h.trans value hvalue low hlow high hhigh htext hnumbers hgt
    · intro habsorbs
      obtain ⟨hhighTies, hlowTies, hgt⟩ := habsorbs.breaks
      exact h.trans high hhigh value hvalue low hlow hhighTies hlowTies hgt
  · intro h
    constructor
    · intro l _ r _
      exact sortCompare_swap l r
    · intro l hl m hm r hr
      refine sortCompare_trans ⟨?_, ?_, ?_⟩ ?_
      · exact (h m hm r hr l hl).1
      · exact (h r hr l hl m hm).1
      · exact (h l hl m hm r hr).1
      · exact (h r hr l hl m hm).2

/-- As integers 2 is before 10, and as text `10` is before `1a` and `1a`
before `2`. -/
theorem mixed_column_goes_in_circles :
    sortCompare "2" "10" ≠ .gt ∧ sortCompare "10" "1a" ≠ .gt ∧
    sortCompare "2" "1a" = .gt := by
  decide +kernel

/-- Numbers alone do so too: written with a point, 2^53 ties with 2^53 + 1. -/
example : Absorbs "9007199254740992.0" "9007199254740992" "9007199254740993" :=
  ⟨by decide +kernel, ⟨9007199254740992, 9007199254740993, by decide +kernel⟩, by decide +kernel,
    by decide +kernel⟩

/-! ## Columns of one kind -/

/-- The code points of a text. -/
def codePoints (s : String) : List Nat :=
  s.toList.map Char.toNat

theorem codePoints_lt_iff {l r : String} :
    codePoints l < codePoints r ↔ l < r := by
  have hchars : ∀ a b : List Char, a.map Char.toNat < b.map Char.toNat ↔ a < b := by
    intro a
    induction a with
    | nil =>
        intro b
        cases b <;> simp
    | cons c a ih =>
        intro b
        cases b with
        | nil => simp
        | cons d b =>
            rw [List.map_cons, List.map_cons, List.cons_lt_cons_iff, List.cons_lt_cons_iff, ih,
              Char.toNat_inj]
            rfl
  rw [codePoints, codePoints, hchars, String.lt_iff_toList_lt]

theorem rank?_eq_none_of_read? {s : String}
    (h : Binary64.read? s = none) : rank? s = none := by
  rw [Binary64.rank?, h]

/-- The comparison of two fields answers for both directions, and a value
ties with itself.  Where all values are integers it is their order, and where
none is a number it is the order of text by code points, so columns of one
kind are in order as a whole. -/
theorem sortCompare_orders_columns_of_one_kind :
    (∀ left right, sortCompare right left = (sortCompare left right).swap) ∧
    (∀ s, sortCompare s s = .eq) ∧
    (∀ values : Set String, (∀ s ∈ values, (Integer.read? s).isSome) →
      (∀ left ∈ values, ∀ right ∈ values,
        ∀ i ∈ Integer.read? left, ∀ j ∈ Integer.read? right,
          sortCompare left right = compare i j) ∧
      TotalPreorderOn sortCompare values) ∧
    (∀ values : Set String, (∀ s ∈ values, Binary64.read? s = none) →
      (∀ left ∈ values, ∀ right ∈ values,
        (sortCompare left right = .lt ↔ codePoints left < codePoints right) ∧
        (sortCompare left right = .eq ↔ left = right)) ∧
      TotalPreorderOn sortCompare values) := by
  refine ⟨sortCompare_swap, Oriented.self sortCompare_swap, ?_, ?_⟩
  · intro values hvalues
    constructor
    · intro left _ right _ i hi j hj
      exact sortCompare_of_integers hi hj
    · refine TotalPreorderOn.of_key (fun s => (Integer.read? s).getD 0) ?_
      intro left hleft right hright
      obtain ⟨i, hi⟩ := Option.isSome_iff_exists.mp (hvalues left hleft)
      obtain ⟨j, hj⟩ := Option.isSome_iff_exists.mp (hvalues right hright)
      rw [sortCompare_of_integers hi hj, hi, hj]
      rfl
  · intro values hvalues
    have htext : ∀ left ∈ values, ∀ right, sortCompare left right = compare left right := by
      intro left hleft right
      exact sortCompare_of_text (.inl (rank?_eq_none_of_read? (hvalues left hleft)))
    constructor
    · intro left hleft right _
      rw [htext left hleft right, codePoints_lt_iff]
      exact ⟨compare_lt_iff_lt, compare_eq_iff_eq⟩
    · exact TotalPreorderOn.of_key id fun left hleft right _ => htext left hleft right

/-- Blanks, a sign and leading zeros make no difference. -/
theorem spellings_of_seven_tie :
    let sevens : Set String := {" 7", "+7", "007"}
    (∀ s ∈ sevens, (Integer.read? s).isSome) ∧
      ∀ left ∈ sevens, ∀ right ∈ sevens, sortCompare left right = .eq := by
  intro sevens
  have hread : ∀ s ∈ sevens, Integer.read? s = some 7 := by
    rintro s (rfl | rfl | rfl) <;> decide +kernel
  have hinteger : ∀ s ∈ sevens, (Integer.read? s).isSome := by
    intro s hs
    rw [hread s hs]
    rfl
  obtain ⟨-, -, hintegers, -⟩ := sortCompare_orders_columns_of_one_kind
  refine ⟨hinteger, ?_⟩
  intro left hleft right hright
  exact (hintegers sevens hinteger).1 left hleft right hright 7 (hread left hleft) 7
    (hread right hright)

end CsvQuery
