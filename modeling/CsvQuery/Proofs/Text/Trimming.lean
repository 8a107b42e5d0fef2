/-
Trimming, and the words between blanks.

What is dropped at the end of a text depends on nothing but its tail: on a text
of two parts a part that goes altogether leaves the other one to be trimmed, and
any other part is trimmed by itself.  The words of a text split at every blank
(`wordsFrom_append_blank`), so blanks at its ends change none of them.
-/
import CsvQuery.Text.Blank
import Mathlib.Data.List.DropRight

namespace CsvQuery.Text

/-! ## Tails -/

section
variable {p : Char → Bool} {cs ds : List Char}

theorem dropTail_append_of_all (h : ∀ c ∈ ds, p c = true) (cs : List Char) :
    dropTail p (cs ++ ds) = dropTail p cs := by
  have hall : ∀ c ∈ ds.reverse, p c = true := fun c hc => h c (List.mem_reverse.mp hc)
  rw [dropTail, List.reverse_append, List.dropWhile_append_of_pos hall, dropTail]

theorem dropTail_append_of_not (h : ¬ ∀ c ∈ ds, p c = true) (cs : List Char) :
    dropTail p (cs ++ ds) = cs ++ dropTail p ds := by
  have hrest : ds.reverse.dropWhile p ≠ [] := by
    intro hnil
    exact h fun c hc => List.dropWhile_eq_nil_iff.mp hnil c (List.mem_reverse.mpr hc)
  rw [dropTail, List.reverse_append, List.dropWhile_append, if_neg (by simpa using hrest),
    List.reverse_append, List.reverse_reverse, dropTail]

/-- A text is what is left of it and a tail that is dropped. -/
theorem exists_tail (p : Char → Bool) (cs : List Char) :
    ∃ tail, cs = dropTail p cs ++ tail ∧ ∀ c ∈ tail, p c = true := by
  refine ⟨(cs.reverse.takeWhile p).reverse, ?_, ?_⟩
  · rw [dropTail, ← List.reverse_append, List.takeWhile_append_dropWhile,
      List.reverse_reverse]
  · intro c hc
    exact List.all_eq_true.mp List.all_takeWhile c (List.mem_reverse.mp hc)

theorem dropTail_idempotent (p : Char → Bool) (cs : List Char) :
    dropTail p (dropTail p cs) = dropTail p cs :=
  List.rdropWhile_idempotent p cs

theorem dropTail_eq_self_iff :
    dropTail p cs = cs ↔ ∀ c ∈ cs.getLast?, p c = false := by
  have hself : dropTail p cs = cs ↔ ∀ hne : cs ≠ [], ¬ p (cs.getLast hne) = true :=
    List.rdropWhile_eq_self_iff
  rw [hself]
  constructor
  · intro h c hc
    obtain ⟨hne, rfl⟩ := List.mem_getLast?_eq_getLast hc
    exact Bool.eq_false_iff.mpr (h hne)
  · intro h hne
    exact Bool.eq_false_iff.mp (h _ (List.getLast_mem_getLast? hne))

theorem dropTail_eq_nil_iff : dropTail p cs = [] ↔ ∀ c ∈ cs, p c = true := by
  rw [dropTail, List.reverse_eq_nil_iff, List.dropWhile_eq_nil_iff]
  simp only [List.mem_reverse]

theorem getLast?_dropTail : ∀ c ∈ (dropTail p cs).getLast?, p c = false :=
  dropTail_eq_self_iff.mp (dropTail_idempotent p cs)

end

/-! ## Both ends -/

theorem dropTail_cons_of_not {c : Char} (p : Char → Bool) (h : p c = false)
    (cs : List Char) :
    dropTail p (c :: cs) = c :: dropTail p cs := by
  by_cases hall : ∀ d ∈ cs, p d = true
  · rw [← List.singleton_append, dropTail_append_of_all hall, dropTail_eq_nil_iff.mpr hall,
      dropTail_eq_self_iff]
    simpa using h
  · rw [← List.singleton_append, dropTail_append_of_not hall, List.singleton_append]

/-- A trimmed text begins with no blank. -/
theorem dropWhile_trimChars (cs : List Char) :
    (trimChars cs).dropWhile isBlank = trimChars cs := by
  unfold trimChars
  cases hcs : cs.dropWhile isBlank with
  | nil => rfl
  | cons c rest =>
      have hc : isBlank c = false := by
        have hhead := List.head_dropWhile_not isBlank (l := cs) (by simp [hcs])
        simpa [hcs] using hhead
      rw [dropTail_cons_of_not isBlank hc, List.dropWhile_cons_of_neg (by simp [hc])]

theorem trimChars_eq_nil_iff {cs : List Char} :
    trimChars cs = [] ↔ ∀ c ∈ cs, isBlank c = true := by
  have hfront : ∀ c ∈ cs.takeWhile isBlank, isBlank c = true :=
    fun c hc => List.all_eq_true.mp List.all_takeWhile c hc
  rw [trimChars, dropTail_eq_nil_iff]
  conv => rhs; rw [← cs.takeWhile_append_dropWhile (p := isBlank), List.forall_mem_append]
  exact (and_iff_right hfront).symm

/-- What is dropped at the end of a text brings no blank to its beginning. -/
theorem dropWhile_dropTail {cs : List Char} (h : cs.dropWhile isBlank = cs)
    (p : Char → Bool) :
    (dropTail p cs).dropWhile isBlank = dropTail p cs := by
  obtain ⟨tail, hcs, -⟩ := exists_tail p cs
  cases hkept : dropTail p cs with
  | nil => rfl
  | cons c kept =>
      rw [hkept, List.cons_append] at hcs
      have hc : isBlank c = false := by
        have hhead := List.head?_dropWhile_not isBlank cs
        rw [h, hcs] at hhead
        simpa using hhead
      rw [List.dropWhile_cons_of_neg (by simp [hc])]

theorem trimChars_idempotent (cs : List Char) :
    trimChars (trimChars cs) = trimChars cs := by
  rw [trimChars, dropWhile_trimChars, trimChars, dropTail_idempotent]

theorem trim_idempotent (s : String) : trim (trim s) = trim s := by
  simp [trim, trimChars_idempotent]

/-! ## Words -/

/-- At a blank the words of a text split. -/
theorem wordsFrom_append_blank {c : Char} (h : isBlank c = true)
    (cs rest : List Char) :
    ∀ word, wordsFrom word (cs ++ c :: rest)
      = wordsFrom word cs ++ wordsFrom [] rest := by
  induction cs with
  | nil =>
      intro word
      rw [List.nil_append, wordsFrom.eq_2, if_pos h, wordsFrom.eq_1]
      split <;> rfl
  | cons d cs ih =>
      intro word
      rw [List.cons_append, wordsFrom.eq_2, wordsFrom.eq_2, ih, ih]
      split
      · split <;> rfl
      · rfl

/-- In front of a word blanks are skipped. -/
theorem wordsFrom_blanks {gap : List Char} (h : ∀ c ∈ gap, isBlank c = true)
    (rest : List Char) : wordsFrom [] (gap ++ rest) = wordsFrom [] rest := by
  induction gap with
  | nil => rfl
  | cons c gap ih =>
      obtain ⟨hc, hgap⟩ := List.forall_mem_cons.mp h
      exact (wordsFrom_append_blank hc [] (gap ++ rest) []).trans (ih hgap)

theorem wordsFrom_append_gap {gap : List Char}
    (h : ∀ c ∈ gap, isBlank c = true) (hne : gap ≠ [])
    (word cs rest : List Char) :
    wordsFrom word (cs ++ (gap ++ rest))
      = wordsFrom word cs ++ wordsFrom [] rest := by
  cases gap with
  | nil => exact absurd rfl hne
  | cons c gap =>
      obtain ⟨hc, hgap⟩ := List.forall_mem_cons.mp h
      rw [List.cons_append, wordsFrom_append_blank hc, wordsFrom_blanks hgap]

theorem wordsFrom_dropWhile (cs : List Char) :
    wordsFrom [] (cs.dropWhile isBlank) = wordsFrom [] cs := by
  have hall : ∀ c ∈ cs.takeWhile isBlank, isBlank c = true :=
    fun c hc => List.all_eq_true.mp List.all_takeWhile c hc
  rw [← wordsFrom_blanks hall, List.takeWhile_append_dropWhile]

theorem wordsFrom_dropTail (word cs : List Char) :
    wordsFrom word (dropTail isBlank cs) = wordsFrom word cs := by
  obtain ⟨tail, hcs, htail⟩ := exists_tail isBlank cs
  by_cases hnil : tail = []
  · rw [hnil, List.append_nil] at hcs
    rw [← hcs]
  · have hgap := wordsFrom_append_gap htail hnil word (dropTail isBlank cs) []
    rw [List.append_nil, ← hcs] at hgap
    rw [hgap]
    exact (List.append_nil _).symm

/-- Blanks around a text are in none of its words. -/
theorem words_trim (s : String) : words (trim s) = words s := by
  rw [words, trim, String.toList_ofList, trimChars, wordsFrom_dropTail,
    wordsFrom_dropWhile, words]

end CsvQuery.Text
