/-
Quote marks and tokens.

Every quote mark of a text is kept, and a token ends outside of quotes only.
So all tokens but the last hold an even number of marks, and a text with an odd
number of them leaves its last token with an odd number.
-/
import CsvQuery.Token

namespace CsvQuery
namespace Token

/-- The number of quote marks. -/
def marks (cs : List Char) : Nat := cs.count quoteMark

@[simp] theorem marks_nil : marks [] = 0 := rfl

@[simp] theorem marks_quoteMark_cons {cs : List Char} :
    marks (quoteMark :: cs) = marks cs + 1 :=
  List.count_cons_self

theorem marks_cons_of_ne {c : Char} {cs : List Char} (h : c ≠ quoteMark) :
    marks (c :: cs) = marks cs :=
  List.count_cons_of_ne h

@[simp] theorem marks_append {cs ds : List Char} :
    marks (cs ++ ds) = marks cs + marks ds :=
  List.count_append

@[simp] theorem marks_reverse {cs : List Char} : marks cs.reverse = marks cs :=
  List.count_reverse

theorem quoteMark_mem_of_odd {cs : List Char}
    (h : marks cs % 2 = 1) : quoteMark ∈ cs := by
  have hpos : 0 < marks cs := by omega
  exact List.count_pos_iff.mp hpos

/-- A quote is open when the marks read so far are odd; what is left has to
bring them to the other parity for the last token to be balanced. -/
theorem scan_eq_append_of_odd : ∀ {cs current : List Char} {quoted : Bool},
    (quoted = true ↔ marks current % 2 = 1) →
    (marks current + marks cs) % 2 = 1 →
      ∃ front last, scan quoted current cs = front ++ [last] ∧
        marks last % 2 = 1
  | [], current, quoted, _, hodd => by
      refine ⟨[], current.reverse, ?_, by simpa using hodd⟩
      cases current with
      | nil => simp at hodd
      | cons c current => rfl
  | c :: cs, current, quoted, hquoted, hodd => by
      rw [scan]
      split
      · next hmark =>
          subst hmark
          refine scan_eq_append_of_odd ?_ (by simp only [marks_quoteMark_cons] at hodd ⊢; omega)
          rw [marks_quoteMark_cons, Bool.not_eq_true', ← Bool.not_eq_true, hquoted]
          omega
      · next hmark =>
          rw [marks_cons_of_ne hmark] at hodd
          have hother : marks (c :: current) = marks current := marks_cons_of_ne hmark
          split
          · exact scan_eq_append_of_odd (hother ▸ hquoted) (hother ▸ hodd)
          · next hclosed =>
              -- Outside of quotes the token read so far is balanced.
              have hcurrent : ¬ marks current % 2 = 1 :=
                fun h => hclosed (hquoted.mpr h)
              have hfresh : ∃ front last,
                  scan false [] cs = front ++ [last] ∧ marks last % 2 = 1 :=
                scan_eq_append_of_odd (by simp) (by rw [marks_nil]; omega)
              obtain ⟨front, last, htail, hlast⟩ := hfresh
              split
              · exact ⟨flush current ++ front, last, by rw [htail, List.append_assoc], hlast⟩
              · split
                · exact ⟨flush current ++ [','] :: front, last, by rw [htail]; simp, hlast⟩
                · refine scan_eq_append_of_odd ?_ (hother ▸ hodd)
                  simp [hother, hcurrent]

end Token

theorem tokenize_eq_append_of_odd {sql : String}
    (h : Token.marks sql.toList % 2 = 1) :
    ∃ front last, tokenize sql = front ++ [last] ∧
      Token.marks last.toList % 2 = 1 := by
  have hlast : ∃ front last, Token.scan false [] sql.toList = front ++ [last] ∧
      Token.marks last % 2 = 1 :=
    Token.scan_eq_append_of_odd (by simp) (by simpa using h)
  obtain ⟨front, last, hscan, hmarks⟩ := hlast
  exact ⟨front.map String.ofList, String.ofList last, by simp [tokenize, hscan],
    by simpa using hmarks⟩

end CsvQuery
