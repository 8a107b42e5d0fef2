/-
Texts that differ in their gaps.

Between two tokens any separators do, if there is at least one: a break outside
of quotes can be replaced by any other one (`Respaced`).  That changes neither
the tokens of a text nor its words.  And whatever is dropped at the ends of such
texts, what is left differs in its gaps again, as no class of characters that is
dropped there has some of the separators and lacks others.

The pass over a text can be cut anywhere (`scan_append`); what is carried
over the cut is the quote mode and the token read so far.
-/
import CsvQuery.Proofs.Text.Trimming
import CsvQuery.Proofs.Token.Layout
import CsvQuery.Proofs.Token.QuoteMarks

namespace CsvQuery

namespace Token

/-- The tokens of a text in two parts are read one part after the other.
Behind the first one a quote is open if its marks have turned the mode. -/
theorem scan_append (cs : List Char) : ∀ (quoted : Bool) (current : List Char),
    ∃ front current', ∀ rest, scan quoted current (cs ++ rest)
      = front ++ scan (quoted ^^ decide (marks cs % 2 = 1)) current' rest := by
  induction cs with
  | nil => exact fun quoted current => ⟨[], current, fun rest => by simp⟩
  | cons c cs ih =>
      intro quoted current
      by_cases hmark : c = quoteMark
      · subst hmark
        obtain ⟨front, current', hrest⟩ := ih (!quoted) (quoteMark :: current)
        refine ⟨front, current', fun rest => ?_⟩
        have hmode : (!quoted ^^ decide (marks cs % 2 = 1))
            = (quoted ^^ decide (marks (quoteMark :: cs) % 2 = 1)) := by
          have hturn : decide (marks (quoteMark :: cs) % 2 = 1)
              = !decide (marks cs % 2 = 1) := by
            rw [marks_quoteMark_cons, ← decide_not, decide_eq_decide]
            omega
          rw [hturn]
          cases quoted <;> cases decide (marks cs % 2 = 1) <;> rfl
        rw [List.cons_append, scan, if_pos rfl, hrest, hmode]
      · have hkeep : ∀ (quoted : Bool) (current : List Char), ∃ front current', ∀ rest,
            scan quoted current (cs ++ rest)
              = front ++ scan (quoted ^^ decide (marks (c :: cs) % 2 = 1)) current' rest := by
          rw [marks_cons_of_ne hmark]
          exact ih
        cases quoted with
        | true =>
            obtain ⟨front, current', hrest⟩ := hkeep true (c :: current)
            refine ⟨front, current', fun rest => ?_⟩
            rw [List.cons_append, scan, if_neg hmark, if_pos rfl, hrest]
        | false =>
            by_cases hseparator : isSeparator c = true
            · obtain ⟨front, current', hrest⟩ := hkeep false []
              refine ⟨flush current ++ front, current', fun rest => ?_⟩
              rw [List.cons_append, scan_separator hseparator, hrest, List.append_assoc]
            · by_cases hcomma : c = ','
              · obtain ⟨front, current', hrest⟩ := hkeep false []
                refine ⟨flush current ++ [','] :: front, current', fun rest => ?_⟩
                rw [hcomma, List.cons_append, scan_comma, hrest, List.append_assoc,
                  List.cons_append, ← hcomma]
              · obtain ⟨front, current', hrest⟩ := hkeep false (c :: current)
                refine ⟨front, current', fun rest => ?_⟩
                rw [List.cons_append, scan, if_neg hmark, if_neg Bool.false_ne_true,
                  if_neg hseparator, if_neg hcomma, hrest]

/-! ## Breaks -/

/-- Separators, at least one. -/
structure IsBreak (gap : List Char) : Prop where
  isGap : IsGap gap
  ne_nil : gap ≠ []

theorem IsBreak.scan {gap : List Char} (h : IsBreak gap)
    (current rest : List Char) :
    scan false current (gap ++ rest) = flush current ++ scan false [] rest := by
  cases gap with
  | nil => exact absurd rfl h.ne_nil
  | cons c gap =>
      obtain ⟨hc, hgap⟩ := List.forall_mem_cons.mp h.isGap
      rw [List.cons_append, scan_separator hc, scan_gap hgap]

theorem isBlank_of_isSeparator {c : Char}
    (h : isSeparator c = true) : Text.isBlank c = true := by
  simp only [isSeparator, Bool.or_eq_true, beq_iff_eq] at h
  rcases h with ((rfl | rfl) | rfl) | rfl <;> decide

theorem IsGap.isBlank {gap : List Char} (h : IsGap gap) :
    ∀ c ∈ gap, Text.isBlank c = true :=
  fun c hc => isBlank_of_isSeparator (h c hc)

/-- No blank is a quote mark. -/
theorem marks_blanks {cs : List Char}
    (h : ∀ c ∈ cs, Text.isBlank c = true) : marks cs = 0 := by
  refine List.count_eq_zero.mpr ?_
  intro hmark
  cases h quoteMark hmark

/-! ## Other breaks in the same places -/

/-- The second text is the first one with other breaks in places outside of
quotes. -/
inductive Respaced : List Char → List Char → Prop
  | same (cs : List Char) : Respaced cs cs
  | gap {front gap gap' rest rest' : List Char} : marks front % 2 = 0 →
      IsBreak gap →
      IsBreak gap' → Respaced rest rest' →
      Respaced (front ++ (gap ++ rest)) (front ++ (gap' ++ rest'))

section
variable {cs cs' : List Char}

theorem Respaced.scan_eq (h : Respaced cs cs') :
    scan false [] cs = scan false [] cs' := by
  induction h with
  | same => rfl
  | @gap front gap gap' rest rest' heven hgap hgap' _ ih =>
      obtain ⟨found, current, hfront⟩ := scan_append front false []
      have hclosed : (false ^^ decide (marks front % 2 = 1)) = false := by simp [heven]
      rw [hfront, hfront, hclosed, hgap.scan, hgap'.scan, ih]

theorem Respaced.wordsFrom_eq (h : Respaced cs cs') :
    Text.wordsFrom [] cs = Text.wordsFrom [] cs' := by
  induction h with
  | same => rfl
  | gap _ hgap hgap' _ ih =>
      rw [Text.wordsFrom_append_gap hgap.isGap.isBlank hgap.ne_nil,
        Text.wordsFrom_append_gap hgap'.isGap.isBlank hgap'.ne_nil, ih]

/-! ## What is left at the ends -/

/-- The class has all separators, or none of them. -/
def Uniform (p : Char → Bool) : Prop :=
  (∀ c, isSeparator c = true → p c = true) ∨ ∀ c, isSeparator c = true → p c = false

theorem uniform_isBlank :
    Uniform Text.isBlank := .inl fun _ => isBlank_of_isSeparator

theorem uniform_semicolon : Uniform (· == ';') := by
  refine .inr ?_
  intro c h
  refine beq_false_of_ne ?_
  rintro rfl
  cases h

/-- All breaks are in the class, or none is. -/
theorem Uniform.all_break {p : Char → Bool} (hp : Uniform p)
    {gap gap' : List Char} (hgap : IsBreak gap)
    (hgap' : IsBreak gap') : gap.all p = gap'.all p := by
  rcases hp with htrue | hfalse
  · have hall {gap : List Char} (h : IsBreak gap) : gap.all p = true :=
      List.all_eq_true.mpr fun c hc => htrue c (h.isGap c hc)
    rw [hall hgap, hall hgap']
  · have hnone {gap : List Char} (h : IsBreak gap) : gap.all p = false := by
      obtain ⟨c, hc⟩ := List.exists_mem_of_ne_nil gap h.ne_nil
      exact List.all_eq_false.mpr ⟨c, hc, by simp [hfalse c (h.isGap c hc)]⟩
    rw [hnone hgap, hnone hgap']

theorem Respaced.all_iff {p : Char → Bool} (hp : Uniform p)
    (h : Respaced cs cs') :
    (∀ c ∈ cs, p c = true) ↔ ∀ c ∈ cs', p c = true := by
  induction h with
  | same => rfl
  | gap _ hgap hgap' _ ih =>
      have hbreak := hp.all_break hgap hgap'
      rw [Bool.eq_iff_iff, List.all_eq_true, List.all_eq_true] at hbreak
      simp only [List.forall_mem_append, hbreak, ih]

/-- A break at the end is dropped altogether, or not at all. -/
theorem dropTail_break {p : Char → Bool} (hp : Uniform p) {gap : List Char}
    (hgap : IsBreak gap) (cs : List Char) :
    Text.dropTail p (cs ++ gap)
      = if gap.all p then Text.dropTail p cs else cs ++ gap := by
  split
  next hall => exact Text.dropTail_append_of_all (List.all_eq_true.mp hall) cs
  next hall =>
    have hfalse := hp.resolve_left fun htrue =>
      hall (List.all_eq_true.mpr fun c hc => htrue c (hgap.isGap c hc))
    rw [Text.dropTail_eq_self_iff, List.getLast?_append_of_ne_nil cs hgap.ne_nil]
    intro c hc
    exact hfalse c (hgap.isGap c (List.mem_of_getLast? hc))

theorem Respaced.dropTail {p : Char → Bool} (hp : Uniform p)
    (h : Respaced cs cs') :
    Respaced (Text.dropTail p cs) (Text.dropTail p cs') := by
  induction h with
  | same => exact .same _
  | @gap front gap gap' rest rest' heven hgap hgap' hrest ih =>
      rw [← List.append_assoc, ← List.append_assoc]
      by_cases hall : ∀ c ∈ rest, p c = true
      · rw [Text.dropTail_append_of_all hall,
          Text.dropTail_append_of_all ((hrest.all_iff hp).mp hall), dropTail_break hp hgap,
          dropTail_break hp hgap']
        rw [hp.all_break hgap hgap']
        split
        · exact .same _
        · have hends := Respaced.gap heven hgap hgap' (.same [])
          rwa [List.append_nil, List.append_nil] at hends
      · rw [Text.dropTail_append_of_not hall,
          Text.dropTail_append_of_not ((not_congr (hrest.all_iff hp)).mp hall), List.append_assoc,
          List.append_assoc]
        exact .gap heven hgap hgap' ih

theorem Respaced.dropBlanks (h : Respaced cs cs') :
    Respaced (cs.dropWhile Text.isBlank) (cs'.dropWhile Text.isBlank) := by
  induction h with
  | same => exact .same _
  | @gap front gap gap' rest rest' heven hgap hgap' _ ih =>
      by_cases hall : ∀ c ∈ front, Text.isBlank c = true
      · rw [List.dropWhile_append_of_pos hall, List.dropWhile_append_of_pos hgap.isGap.isBlank,
          List.dropWhile_append_of_pos hall, List.dropWhile_append_of_pos hgap'.isGap.isBlank]
        exact ih
      · have hstays : (front.dropWhile Text.isBlank).isEmpty ≠ true := by
          simpa [List.dropWhile_eq_nil_iff] using hall
        have hmarks : marks (front.dropWhile Text.isBlank) = marks front := by
          have hnone : marks (front.takeWhile Text.isBlank) = 0 :=
            marks_blanks fun c hc => List.all_eq_true.mp List.all_takeWhile c hc
          have hsplit :=
            congrArg marks (front.takeWhile_append_dropWhile (p := Text.isBlank))
          rw [marks_append, hnone, Nat.zero_add] at hsplit
          exact hsplit
        rw [List.dropWhile_append, if_neg hstays, List.dropWhile_append, if_neg hstays]
        exact .gap (hmarks ▸ heven) hgap hgap' ‹_›

theorem Respaced.trimChars (h : Respaced cs cs') :
    Respaced (Text.trimChars cs) (Text.trimChars cs') :=
  h.dropBlanks.dropTail uniform_isBlank

end
end Token

theorem tokenize_eq_iff {sql sql' : String} :
    tokenize sql = tokenize sql'
      ↔ Token.scan false [] sql.toList = Token.scan false [] sql'.toList := by
  rw [tokenize, tokenize]
  exact List.map_inj_right fun _ _ => String.ofList_injective

end CsvQuery
