/-
Texts that are laid out from tokens.

Between two tokens of a text stands a gap of separators, and it may only be
empty next to a comma.  The tokenizer finds the tokens again, however they are
laid out, if each of them is a comma or is `Unbroken`: then its characters all
go to the token that is being read, wherever they stand in it.  That is a
property of the characters alone, and so a token can be put together from
unbroken parts.
-/
import CsvQuery.Token

namespace CsvQuery
namespace Token

/-! ## Unbroken tokens -/

/-- Outside of quotes the characters go to the token that is being read, and
no quote is left open behind them. -/
def Unbroken (cs : List Char) : Prop :=
  ∀ current rest : List Char,
    scan false current (cs ++ rest) = scan false (cs.reverse ++ current) rest

/-- The character has no meaning to the tokenizer. -/
structure Plain (c : Char) : Prop where
  notMark : c ≠ quoteMark
  notSeparator : isSeparator c = false
  notComma : c ≠ ','

/-- The characters that mean something to the tokenizer. -/
def meaningful : List Char := [quoteMark, ' ', '\t', '\n', '\r', ',']

theorem plain_iff {c : Char} : Plain c ↔ c ∉ meaningful := by
  constructor
  · rintro ⟨hmark, hseparator, hcomma⟩
    simp only [isSeparator, Bool.or_eq_false_iff, beq_eq_false_iff_ne] at hseparator
    simp [meaningful, hmark, hseparator, hcomma]
  · intro h
    simp only [meaningful, List.mem_cons, List.not_mem_nil, or_false, not_or] at h
    obtain ⟨hmark, hspace, htab, hfeed, hreturn, hcomma⟩ := h
    exact ⟨hmark, by simp [isSeparator, hspace, htab, hfeed, hreturn], hcomma⟩

theorem plain_of_all {cs : List Char}
    (h : (cs.all fun c => !meaningful.contains c) = true) :
    ∀ c ∈ cs, Plain c := by
  intro c hc
  simpa [plain_iff] using List.all_eq_true.mp h c hc

/-- No such character is a letter. -/
theorem plain_of_toLower {c : Char} (h : Plain c.toLower) : Plain c := by
  have hcase : (meaningful.all fun d => d.toLower == d) = true := by decide
  rw [plain_iff] at h ⊢
  intro hc
  rw [beq_iff_eq.mp (List.all_eq_true.mp hcase c hc)] at h
  exact h hc

theorem unbroken_nil : Unbroken [] :=
  fun _ _ => rfl

theorem Unbroken.append {cs ds : List Char} (hcs : Unbroken cs)
    (hds : Unbroken ds) :
    Unbroken (cs ++ ds) := by
  intro current rest
  rw [List.append_assoc, hcs, hds, List.reverse_append, List.append_assoc]

theorem unbroken_singleton {c : Char} (h : Plain c) : Unbroken [c] := by
  intro current rest
  rw [List.singleton_append, scan, if_neg h.notMark, if_neg Bool.false_ne_true,
    if_neg (by simp [h.notSeparator]), if_neg h.notComma]
  rfl

theorem unbroken_of_plain {cs : List Char}
    (h : ∀ c ∈ cs, Plain c) : Unbroken cs := by
  induction cs with
  | nil => exact unbroken_nil
  | cons c cs ih =>
      obtain ⟨hc, hcs⟩ := List.forall_mem_cons.mp h
      exact (unbroken_singleton hc).append (ih hcs)

/-- Inside of quotes all characters but the mark go to the token. -/
theorem scan_quoted {cs : List Char} (h : quoteMark ∉ cs)
    (current rest : List Char) :
    scan true current (cs ++ rest)
      = scan true (cs.reverse ++ current) rest := by
  induction cs generalizing current with
  | nil => rfl
  | cons c cs ih =>
      obtain ⟨hc, hcs⟩ := not_or.mp (mt List.mem_cons.mpr h)
      rw [List.cons_append, scan, if_neg (Ne.symm hc), if_pos rfl, ih hcs]
      simp

theorem unbroken_quoted {cs : List Char} (h : quoteMark ∉ cs) :
    Unbroken (quoteMark :: (cs ++ [quoteMark])) := by
  intro current rest
  have hopen : scan false current (quoteMark :: (cs ++ [quoteMark]) ++ rest)
      = scan true (quoteMark :: current) (cs ++ quoteMark :: rest) := by
    simp [scan]
  rw [hopen, scan_quoted h, scan, if_pos rfl]
  simp

/-- What the tokenizer can find. -/
def IsLexeme (token : String) : Prop :=
  token = "," ∨ token ≠ "" ∧ Unbroken token.toList

theorem isLexeme_of_plain {token : String} (hne : token ≠ "")
    (h : ∀ c ∈ token.toList, Plain c) :
    IsLexeme token :=
  .inr ⟨hne, unbroken_of_plain h⟩

/-! ## Gaps -/

/-- Separators only. -/
def IsGap (gap : List Char) : Prop := ∀ c ∈ gap, isSeparator c = true

theorem isSeparator_ne_quoteMark {c : Char}
    (h : isSeparator c = true) : c ≠ quoteMark := by
  rintro rfl
  cases h

theorem scan_separator {c : Char} (h : isSeparator c = true)
    (current rest : List Char) :
    scan false current (c :: rest) = flush current ++ scan false [] rest := by
  rw [scan, if_neg (isSeparator_ne_quoteMark h), if_neg Bool.false_ne_true, if_pos h]

theorem scan_comma (current rest : List Char) :
    scan false current (',' :: rest)
      = flush current ++ [','] :: scan false [] rest :=
  rfl

theorem scan_gap {gap : List Char} (h : IsGap gap) (rest : List Char) :
    scan false [] (gap ++ rest) = scan false [] rest := by
  induction gap with
  | nil => rfl
  | cons c gap ih =>
      obtain ⟨hc, hgap⟩ := List.forall_mem_cons.mp h
      rw [List.cons_append, scan_separator hc, ih hgap]
      rfl

/-- What ends a token. -/
def Ends (rest : List Char) :
    Prop := ∀ c ∈ rest.head?, isSeparator c = true ∨ c = ','

theorem scan_of_ends {current rest : List Char} (h : Ends rest) :
    scan false current rest = flush current ++ scan false [] rest := by
  cases rest with
  | nil => simp [scan, flush]
  | cons c rest =>
      rcases h c rfl with hseparator | rfl
      · rw [scan_separator hseparator, scan_separator hseparator]
        rfl
      · rw [scan_comma, scan_comma]
        rfl

/-! ## Layouts -/

/-- The tokens, each with a gap behind it. -/
inductive LaidOut : List String → List Char → Prop
  | nil : LaidOut [] []
  | cons {token : String} {tokens : List String} {gap rest : List Char} :
      IsGap gap → (gap = [] → token = "," ∨ ∀ next ∈ tokens.head?, next = ",") →
      LaidOut tokens rest →
        LaidOut (token :: tokens) (token.toList ++ gap ++ rest)

/-- A gap that separates two tokens, or an empty one in front of a comma or
at the end. -/
theorem LaidOut.ends {tokens : List String} {gap rest : List Char}
    (hrest : LaidOut tokens rest) (hgap : IsGap gap)
    (hempty : gap = [] → ∀ next ∈ tokens.head?, next = ",") :
    Ends (gap ++ rest) := by
  cases gap with
  | cons c gap =>
      intro c' hc'
      cases hc'
      exact .inl (hgap c List.mem_cons_self)
  | nil =>
      cases hrest with
      | nil =>
          intro c hc
          cases hc
      | @cons token tokens gap rest _ _ _ =>
          obtain rfl := hempty rfl token rfl
          intro c hc
          cases hc
          exact .inr rfl

/-- The tokens in front are found, and what is left is laid out from the
tokens behind them. -/
theorem scan_laidOut_append {front tokens : List String} {cs : List Char}
    (h : LaidOut (front ++ tokens) cs)
    (lexemes : ∀ token ∈ front, IsLexeme token) :
    ∃ lead rest, cs = lead ++ rest ∧ LaidOut tokens rest ∧
      scan false [] cs = front.map String.toList ++ scan false [] rest := by
  induction front generalizing cs with
  | nil => exact ⟨[], cs, rfl, h, rfl⟩
  | cons token front ih =>
      obtain ⟨htoken, hfront⟩ := List.forall_mem_cons.mp lexemes
      cases h with
      | @cons _ _ gap body hgap hempty hbody =>
          obtain ⟨lead, rest, rfl, hrest, hscan⟩ := ih hbody hfront
          refine ⟨token.toList ++ gap ++ lead, rest, by simp, hrest, ?_⟩
          rw [List.append_assoc, List.map_cons, List.cons_append, ← hscan,
            ← scan_gap hgap (lead ++ rest)]
          rcases htoken with rfl | ⟨hne, hunbroken⟩
          · exact scan_comma [] (gap ++ (lead ++ rest))
          · by_cases hcomma : token = ","
            · subst hcomma
              exact scan_comma [] (gap ++ (lead ++ rest))
            · have hends : Ends (gap ++ (lead ++ rest)) :=
                hbody.ends hgap fun hnil => (hempty hnil).resolve_left hcomma
              rw [hunbroken, scan_of_ends hends]
              simp [flush, hne]

theorem scan_laidOut {tokens : List String} {cs : List Char}
    (h : LaidOut tokens cs) (lexemes : ∀ token ∈ tokens, IsLexeme token) :
    scan false [] cs = tokens.map String.toList := by
  rw [← List.append_nil tokens] at h
  obtain ⟨lead, rest, -, hrest, hscan⟩ := scan_laidOut_append h lexemes
  cases hrest
  rw [hscan]
  exact List.append_nil _

end Token

/-- The tokens of a text that is laid out from tokens, behind a gap of its
own. -/
theorem tokenize_laidOut {tokens : List String} {gap body : List Char}
    {text : String} (hgap : Token.IsGap gap)
    (hbody : Token.LaidOut tokens body) (htext : text.toList = gap ++ body)
    (lexemes : ∀ token ∈ tokens, Token.IsLexeme token) :
    tokenize text = tokens := by
  rw [tokenize, htext, Token.scan_gap hgap, Token.scan_laidOut hbody lexemes,
    List.map_map]
  simp [Function.comp_def]

end CsvQuery
