/-
What may stand behind a text.

The tokens of a text hold all its characters but for separators
(`solid_scan`).  So more characters at its end leave its tokens as they are
if they are separators and end no quote, and in no other case
(`scan_append_eq_iff`).
-/
import CsvQuery.Proofs.Token.Respacing
import CsvQuery.Proofs.Token.Splitting

namespace CsvQuery.Token

/-- The characters that are no separators. -/
def solid (cs : List Char) : List Char := cs.filter fun c => !isSeparator c

@[simp] theorem solid_append {cs ds : List Char} :
    solid (cs ++ ds) = solid cs ++ solid ds :=
  List.filter_append cs ds

theorem solid_eq_nil_iff {cs : List Char} : solid cs = [] ↔ IsGap cs := by
  simp [solid, IsGap, List.filter_eq_nil_iff]

theorem LaidOut.solid_eq {tokens : List String} {cs : List Char}
    (h : LaidOut tokens cs) :
    solid (tokens.map String.toList).flatten = solid cs := by
  induction h with
  | nil => rfl
  | cons hgap _ _ ih =>
      simp [ih, solid_eq_nil_iff.mpr hgap]

theorem solid_scan (quoted : Bool) (current cs : List Char) :
    solid (scan quoted current cs).flatten = solid (current.reverse ++ cs) := by
  obtain ⟨gap, body, hcs, hgap, hbody⟩ := scan_isLayout cs quoted current
  rw [hcs, solid_append, solid_eq_nil_iff.mpr hgap, ← hbody.solid_eq, List.map_map]
  simp [Function.comp_def]

theorem flatten_flush (current : List Char) :
    (flush current).flatten = current.reverse := by
  cases current <;> simp [flush]

/-- The token read so far is the last one if nothing but separators follows,
outside of quotes. -/
theorem scan_eq_flush_iff {quoted : Bool} {current tail : List Char} :
    scan quoted current tail = flush current ↔
      tail = [] ∨ quoted = false ∧ IsGap tail := by
  constructor
  · intro h
    have hgap : IsGap tail := by
      have hsolid := solid_scan quoted current tail
      rw [h, flatten_flush, solid_append] at hsolid
      exact solid_eq_nil_iff.mp (List.self_eq_append_right.mp hsolid)
    cases quoted with
    | false => exact .inr ⟨rfl, hgap⟩
    | true =>
        -- Within quotes the separators would be a part of the token.
        have hmark : quoteMark ∉ tail :=
          fun hmem => isSeparator_ne_quoteMark (hgap _ hmem) rfl
        have hscan := scan_quoted hmark current []
        rw [List.append_nil, h, scan] at hscan
        have hlength := congrArg (fun tokens => tokens.flatten.length) hscan
        simp only [flatten_flush, List.length_reverse, List.length_append] at hlength
        exact .inl (List.eq_nil_of_length_eq_zero (by omega))
  · rintro (rfl | ⟨rfl, hgap⟩)
    · rfl
    · by_cases hnil : tail = []
      · rw [hnil, scan]
      · have hbreak := IsBreak.scan ⟨hgap, hnil⟩ current []
        rw [List.append_nil] at hbreak
        rw [hbreak]
        exact List.append_nil _

theorem scan_append_eq_iff {cs tail : List Char} :
    scan false [] (cs ++ tail) = scan false [] cs
      ↔ tail = [] ∨ marks cs % 2 = 0 ∧ IsGap tail := by
  obtain ⟨front, current, hrest⟩ := scan_append cs false []
  have hend := hrest []
  rw [List.append_nil, scan] at hend
  have hmode : (false ^^ decide (marks cs % 2 = 1)) = false ↔ marks cs % 2 = 0 := by
    rw [Bool.false_xor, decide_eq_false_iff_not]
    omega
  rw [hrest, hend, List.append_cancel_left_eq, scan_eq_flush_iff, hmode]

end CsvQuery.Token
