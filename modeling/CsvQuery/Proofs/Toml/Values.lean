/-
Values as they stand on a line of their own.

Characters of scalars are taken up to the end of the line (`spells_scalar`),
so a whole number is read from its digits.  A text between double quotes is
read as it stands if it has neither quotes nor escapes in it.
-/
import CsvQuery.Proofs.Number.Decimals
import CsvQuery.Proofs.Toml.Entries

namespace CsvQuery.Toml

open Integer (notMem_toDigits)

/-! ## Scalars -/

/-- The characters that begin another value, and blanks. -/
def valueMarks : List Char := ['\x22', '\x27', '[', '\x7b', ' ', '\t']

theorem notMem_valueMarks {c : Char}
    (h : isScalarChar c = true) : c ∉ valueMarks :=
  notMem_of_all_not (by decide) h

theorem value_scalar {c : Char} (h : c ∉ valueMarks) (depth : Nat)
    (cs : List Char) :
    value depth (c :: cs)
      = (scalar? (splitScalar (c :: cs)).1).map fun v =>
        (v, (splitScalar (c :: cs)).2) := by
  simp only [valueMarks, List.mem_cons, List.not_mem_nil, or_false, not_or] at h
  obtain ⟨hdouble, hsingle, hbracket, hbrace, -, -⟩ := h
  have hplain : value.plain (c :: cs)
      = (scalar? (splitScalar (c :: cs)).1).map fun v => (v, (splitScalar (c :: cs)).2) := by
    unfold value.plain
    split
    next heq => exact absurd (List.cons.inj heq).1 hdouble
    next heq => exact absurd (List.cons.inj heq).1 hsingle
    next => rfl
  cases depth with
  | zero => exact hplain
  | succ depth =>
      unfold value
      split
      next heq => exact absurd (List.cons.inj heq).1 hbracket
      next heq => exact absurd (List.cons.inj heq).1 hbrace
      next => exact hplain

theorem spells_scalar {text : List Char} {v : Value} (hne : text ≠ [])
    (hall : ∀ c ∈ text, isScalarChar c = true)
    (hv : scalar? text = some v) : Spells text v := by
  obtain ⟨c, cs, rfl⟩ := List.exists_cons_of_ne_nil hne
  have hc := notMem_valueMarks (hall c List.mem_cons_self)
  constructor
  · intro rest
    simp only [valueMarks, List.mem_cons, List.not_mem_nil, or_false, not_or] at hc
    obtain ⟨-, -, -, -, hspace, htab⟩ := hc
    simp [skipBlanks, isBlank, hspace, htab]
  · intro rest
    have hsplit : splitScalar (c :: cs ++ '\n' :: rest) = (c :: cs, '\n' :: rest) := by
      have htake : (c :: cs ++ '\n' :: rest).takeWhile isScalarChar = c :: cs := by
        rw [List.takeWhile_append_of_pos hall, List.takeWhile_cons_of_neg (by decide),
          List.append_nil]
      have hdrop : (c :: cs ++ '\n' :: rest).dropWhile isScalarChar = '\n' :: rest := by
        rw [List.dropWhile_append_of_pos hall, List.dropWhile_cons_of_neg (by decide)]
      rw [splitScalar, htake, hdrop]
      split
      next heq => exact absurd (List.cons.inj heq).1 (by decide)
      next => rfl
    rw [List.cons_append] at hsplit ⊢
    rw [value_scalar hc, hsplit, hv]
    rfl

theorem spells_boolean (b : Bool) :
    Spells (if b then "true" else "false").toList (.boolean b) := by
  cases b with
  | false => exact spells_scalar (List.cons_ne_nil _ _) (List.all_eq_true.mp rfl) rfl
  | true => exact spells_scalar (List.cons_ne_nil _ _) (List.all_eq_true.mp rfl) rfl

/-! ## Whole numbers -/

theorem digits?_eq_self {cs : List Char} (h : ∀ c ∈ cs, c.isDigit = true)
    (hne : cs ≠ []) :
    digits? cs = some cs := by
  have hungroup : ∀ {needed : Bool}, (needed = true → cs ≠ []) →
      ungroup Char.isDigit needed cs = some cs := by
    clear hne
    induction cs with
    | nil =>
        intro needed hneeded
        cases needed with
        | false => rfl
        | true => exact absurd rfl (hneeded rfl)
    | cons c cs ih =>
        intro needed _
        obtain ⟨hc, hcs⟩ := List.forall_mem_cons.mp h
        rw [ungroup, if_pos hc, ih hcs (by simp)]
        rfl
  exact hungroup fun _ => hne

section
variable {n : Nat}

theorem wholeDigits?_toDigits :
    wholeDigits? (Nat.toDigits 10 n) = some (Nat.toDigits 10 n) := by
  have hdigits : digits? (Nat.toDigits 10 n) = some (Nat.toDigits 10 n) :=
    digits?_eq_self (fun c => Nat.isDigit_of_mem_toDigits (by decide) (by decide))
      Nat.toDigits_ne_nil
  rw [wholeDigits?, hdigits]
  split
  next d ds heq =>
    have hzero := Option.some.inj heq
    by_cases hn : 0 < n
    · exact absurd (hzero ▸ rfl) (Integer.head?_toDigits_ne hn)
    · obtain rfl := Nat.eq_zero_of_not_pos hn
      cases hzero
  next => rfl

theorem integer?_toDigits (h : n < Integer.signedLimit) :
    integer? (Nat.toDigits 10 n) = some (n : Int) := by
  have hsign : splitSign (Nat.toDigits 10 n) = ([], Nat.toDigits 10 n) := by
    unfold splitSign
    split
    next heq => exact (notMem_toDigits (c := '+') rfl (heq ▸ List.mem_cons_self)).elim
    next heq => exact (notMem_toDigits (c := '-') rfl (heq ▸ List.mem_cons_self)).elim
    next => rfl
  have hsigned : Integer.signed? (Nat.toDigits 10 n) = some (n : Int) := by
    unfold Integer.signed?
    split
    next heq => exact (notMem_toDigits (c := '-') rfl (heq ▸ List.mem_cons_self)).elim
    next heq => exact (notMem_toDigits (c := '+') rfl (heq ▸ List.mem_cons_self)).elim
    next =>
      rw [Integer.digits?_toDigits]
      exact if_pos h
  have hdecimal : decimal? (Nat.toDigits 10 n) = some (n : Int) := by
    rw [decimal?, hsign, wholeDigits?_toDigits]
    exact hsigned
  unfold integer?
  split
  next heq =>
    have hmem : 'x' ∈ Nat.toDigits 10 n := by simp [heq]
    exact absurd hmem (notMem_toDigits rfl)
  next heq =>
    have hmem : 'o' ∈ Nat.toDigits 10 n := by simp [heq]
    exact absurd hmem (notMem_toDigits rfl)
  next heq =>
    have hmem : 'b' ∈ Nat.toDigits 10 n := by simp [heq]
    exact absurd hmem (notMem_toDigits rfl)
  next => exact hdecimal

theorem spells_integer (h : n < Integer.signedLimit) :
    Spells (toString n).toList (.integer n) := by
  have hlist : (toString n).toList = Nat.toDigits 10 n := Nat.toList_repr
  have hscalar : scalar? (Nat.toDigits 10 n) = some (.integer n) := by
    have htrue : Nat.toDigits 10 n ≠ ['t', 'r', 'u', 'e'] :=
      fun heq => notMem_toDigits (c := 't') rfl (heq ▸ List.mem_cons_self)
    have hfalse : Nat.toDigits 10 n ≠ ['f', 'a', 'l', 's', 'e'] :=
      fun heq => notMem_toDigits (c := 'f') rfl (heq ▸ List.mem_cons_self)
    rw [scalar?, if_neg htrue, if_neg hfalse, integer?_toDigits h]
  rw [hlist]
  refine spells_scalar Nat.toDigits_ne_nil ?_ hscalar
  intro c hc
  simp [isScalarChar, Char.isAlphanum,
    Nat.isDigit_of_mem_toDigits (by decide) (by decide) hc]

end

/-! ## Texts -/

theorem basicBody_plain {word : List Char}
    (h : ∀ c ∈ word, isPrintable c = true ∧ c ≠ doubleQuote ∧ c ≠ '\\')
    (rest : List Char) :
    basicBody (word ++ doubleQuote :: rest) = some (word, rest) := by
  induction word with
  | nil =>
      simp [basicBody, doubleQuote]
  | cons c word ih =>
      obtain ⟨⟨hprintable, hquote, hback⟩, hword⟩ := List.forall_mem_cons.mp h
      rw [List.cons_append]
      unfold basicBody
      split
      next heq => cases heq
      next heq => exact absurd (List.cons.inj heq).1 hback
      next heq => exact absurd (List.cons.inj heq).1 hback
      next heq => exact absurd (List.cons.inj heq).1 hback
      next heq =>
        obtain ⟨rfl, rfl⟩ := List.cons.inj heq
        simp [hprintable, hquote, hback, ih hword]

theorem spells_text {word : List Char} (hne : word ≠ [])
    (h : ∀ c ∈ word, isPrintable c = true ∧ c ≠ doubleQuote ∧ c ≠ '\\') :
    Spells (doubleQuote :: (word ++ [doubleQuote]))
      (.text (String.ofList word)) := by
  constructor
  · intro rest
    rfl
  · intro rest
    have hbody := basicBody_plain h ('\n' :: rest)
    obtain ⟨c, cs, rfl⟩ := List.exists_cons_of_ne_nil hne
    have hquote := (h c List.mem_cons_self).2.1
    have hstring : string? (doubleQuote :: (c :: cs ++ [doubleQuote]) ++ '\n' :: rest)
        = some (c :: cs, '\n' :: rest) := by
      unfold string?
      split
      next heq => exact absurd (List.cons.inj (List.cons.inj heq).2).1 hquote
      next heq => exact absurd (List.cons.inj heq).1 (by decide)
      next => simpa [lineString?, doubleQuote] using hbody
    have hplain : value maxDepth (doubleQuote :: (c :: cs ++ [doubleQuote]) ++ '\n' :: rest)
        = (string? (doubleQuote :: (c :: cs ++ [doubleQuote]) ++ '\n' :: rest)).map
            fun found => (.text (String.ofList found.1), found.2) := rfl
    rw [hplain, hstring]
    rfl

end CsvQuery.Toml
