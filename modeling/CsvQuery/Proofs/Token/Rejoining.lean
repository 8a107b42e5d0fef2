/-
A text has the tokens that it is laid out from.

The characters of a token are read into it wherever it stands, and leave the
pass in the quote mode that they end in (`InToken.scan_append`).  With all
quotes closed the token ends at the next gap or comma; with one left open it
swallows what is behind it, so that such a token can only be the last one,
and nothing can stand behind it.

Tokens that were found by the tokenizer can be laid out again in any way, with
one space between two of them for instance.
-/
import CsvQuery.Proofs.Token.Splitting
import Mathlib.Data.List.TakeWhile

namespace CsvQuery
namespace Token

/-! ## One token -/

/-- The characters of a token all go to the token that is being read. -/
theorem InToken.scan_append {quoted : Bool} {cs : List Char}
    (h : InToken quoted cs) :
    ∀ current rest : List Char,
      scan false current (cs ++ rest)
        = scan quoted (cs.reverse ++ current) rest := by
  induction h with
  | start => exact fun _ _ => rfl
  | mark _ ih =>
      intro current rest
      rw [List.append_assoc, ih, List.singleton_append, scan, if_pos rfl]
      simp
  | quoted _ hc ih =>
      intro current rest
      rw [List.append_assoc, ih, List.singleton_append, scan, if_neg hc, if_pos rfl]
      simp
  | plain _ hc ih =>
      intro current rest
      rw [List.append_assoc, ih, unbroken_singleton hc]
      simp

/-- Without an odd mark no quote is left open. -/
theorem InToken.closed {quoted : Bool} {cs : List Char} (h : InToken quoted cs)
    (even : marks cs % 2 = 0) : InToken false cs := by
  cases quoted with
  | false => exact h
  | true =>
      have hodd : marks cs % 2 = 1 := h.quoted_iff.mp rfl
      omega

theorem IsToken.isLexeme {token : String} (h : IsToken token)
    (even : marks token.toList % 2 = 0) : IsLexeme token := by
  obtain ⟨hne, rfl | ⟨quoted, hin⟩⟩ := h
  · exact .inl rfl
  · exact .inr ⟨hne, (hin.closed even).scan_append⟩

/-! ## The last token -/

/-- The characters behind the last quote mark. -/
def behindMarks (cs : List Char) : List Char :=
  (cs.reverse.takeWhile (· != quoteMark)).reverse

/-- What stands in front of a mark does not count. -/
theorem behindMarks_append {cs : List Char} (mark : quoteMark ∈ cs)
    (lead : List Char) :
    behindMarks (lead ++ cs) = behindMarks cs := by
  have hstop : (cs.reverse.takeWhile (· != quoteMark)).length ≠ cs.reverse.length := by
    intro hlength
    have hall := List.takeWhile_eq_self_iff.mp
      ((List.takeWhile_prefix (· != quoteMark)).eq_of_length hlength)
    simpa using hall quoteMark (List.mem_reverse.mpr mark)
  rw [behindMarks, List.reverse_append, List.takeWhile_append, if_neg hstop,
    behindMarks]

theorem behindMarks_gap {gap : List Char} (h : IsGap gap) (cs : List Char) :
    behindMarks (cs ++ gap) = behindMarks cs ++ gap := by
  have hgap : ∀ c ∈ gap.reverse, (c != quoteMark) = true := by
    intro c hc
    simpa using isSeparator_ne_quoteMark (h c (List.mem_reverse.mp hc))
  rw [behindMarks, List.reverse_append, List.takeWhile_append_of_pos hgap, List.reverse_append,
    List.reverse_reverse, behindMarks]

/-- Behind a token that holds a mark and ends the text there is no gap. -/
theorem gap_eq_nil {cs lead gap : List Char} (mark : quoteMark ∈ cs)
    (hgap : IsGap gap) (ends : cs <:+ lead ++ cs ++ gap) : gap = [] := by
  obtain ⟨front, heq⟩ := ends
  have hbehind : behindMarks (front ++ cs) = behindMarks (lead ++ cs) ++ gap := by
    rw [heq, behindMarks_gap hgap]
  rw [behindMarks_append mark, behindMarks_append mark] at hbehind
  exact List.self_eq_append_right.mp hbehind

/-- The last token is found; one that leaves a quote open has to end the
text. -/
theorem scan_last {last : String} {lead rest : List Char} (valid : IsToken last)
    (hrest : LaidOut [last] rest)
    (ends : marks last.toList % 2 = 1 → last.toList <:+ lead ++ rest) :
    scan false [] rest = [last.toList] := by
  by_cases heven : marks last.toList % 2 = 0
  · refine scan_laidOut hrest ?_
    simpa using valid.isLexeme heven
  · have hodd : marks last.toList % 2 = 1 := by omega
    have hmark : quoteMark ∈ last.toList := quoteMark_mem_of_odd hodd
    obtain ⟨hne, rfl | ⟨quoted, hin⟩⟩ := valid
    · exact absurd hodd (by decide)
    · cases hrest with
      | @cons _ _ gap _ hgap _ hnil =>
          cases hnil
          have hends : last.toList <:+ lead ++ last.toList ++ gap := by
            simpa using ends hodd
          obtain rfl := gap_eq_nil hmark hgap hends
          rw [List.append_assoc, hin.scan_append]
          simp [scan, flush, hne]

end Token

open Token

/-- A text is cut into the tokens that it is laid out from. -/
theorem tokenize_of_isLayout {tokens : List String} {text : String}
    (valid : ∀ token ∈ tokens, IsToken token)
    (closed : ∀ token ∈ tokens.dropLast, marks token.toList % 2 = 0)
    (layout : IsLayout tokens text.toList)
    (cutOff : ∀ last ∈ tokens.getLast?, marks last.toList % 2 = 1 →
        last.toList <:+ text.toList) :
    tokenize text = tokens := by
  obtain ⟨gap, body, htext, hgap, hbody⟩ := layout
  cases hlast : tokens.getLast? with
  | none =>
      obtain rfl := List.getLast?_eq_none_iff.mp hlast
      exact tokenize_laidOut hgap hbody htext fun _ htoken => absurd htoken List.not_mem_nil
  | some last =>
      obtain ⟨front, rfl⟩ := List.getLast?_eq_some_iff.mp hlast
      rw [List.dropLast_concat] at closed
      obtain ⟨hfront, hvalid⟩ := List.forall_mem_append.mp valid
      have hlexemes : ∀ token ∈ front, IsLexeme token := fun token htoken =>
        (hfront token htoken).isLexeme (closed token htoken)
      obtain ⟨lead, rest, rfl, hrest, hscan⟩ := scan_laidOut_append hbody hlexemes
      have hends : marks last.toList % 2 = 1 → last.toList <:+ gap ++ lead ++ rest := by
        rw [List.append_assoc, ← htext]
        exact cutOff last hlast
      have hfound : scan false [] rest = [last.toList] :=
        scan_last (hvalid last (List.mem_singleton.mpr rfl)) hrest hends
      rw [tokenize, htext, scan_gap hgap, hscan, hfound]
      simp [Function.comp_def]

/-! ## Tokens that were found -/

/-- Tokens with a space between two of them are laid out. -/
theorem Token.laidOut_joined : ∀ tokens : List String,
    LaidOut tokens (" ".intercalate tokens).toList
  | [] => by
      rw [String.intercalate_nil]
      exact .nil
  | [token] => by
      have hgap : IsGap [] := fun _ hc => absurd hc List.not_mem_nil
      have hlast : LaidOut [token] (token.toList ++ [] ++ []) :=
        .cons hgap (fun _ => .inr fun _ hnext => by cases hnext) .nil
      simpa using hlast
  | token :: next :: tokens => by
      have hgap : IsGap [' '] := by simp [IsGap, isSeparator]
      have hcons : LaidOut (token :: next :: tokens)
          (token.toList ++ [' '] ++ (" ".intercalate (next :: tokens)).toList) :=
        .cons hgap (fun hnil => absurd hnil (List.cons_ne_nil _ _)) (laidOut_joined _)
      simpa using hcons

/-- The last of joined tokens ends the text. -/
theorem suffix_joined {tokens : List String} {last : String}
    (h : last ∈ tokens.getLast?) :
    last.toList <:+ (" ".intercalate tokens).toList := by
  obtain ⟨front, rfl⟩ := List.getLast?_eq_some_iff.mp h
  by_cases hfront : front = []
  · simp [hfront]
  · rw [String.intercalate_append_of_ne_nil hfront (List.cons_ne_nil _ _),
      String.intercalate_singleton, String.toList_append]
    exact List.suffix_append _ _

/-- Commas and tokens that are cut nowhere inside are found again in every
text that is laid out from them, whatever the gaps; a quote may be left open
at the end of the text.  So the tokens of any text are found again when they
are joined by spaces. -/
theorem tokenize_inverts_every_layout :
    (∀ (tokens : List String) (text : String),
      (∀ token ∈ tokens,
        token ≠ "" ∧ (token = "," ∨ ∃ quoted, InToken quoted token.toList)) →
      (∀ token ∈ tokens.dropLast, marks token.toList % 2 = 0) →
      IsLayout tokens text.toList →
      (∀ last ∈ tokens.getLast?, marks last.toList % 2 = 1 →
          last.toList <:+ text.toList) →
      tokenize text = tokens) ∧
    ∀ sql : String,
      tokenize (" ".intercalate (tokenize sql)) = tokenize sql := by
  constructor
  · intro tokens text valid closed layout cutOff
    exact tokenize_of_isLayout valid closed layout cutOff
  · intro sql
    have hjoined : IsLayout (tokenize sql) (" ".intercalate (tokenize sql)).toList :=
      ⟨[], _, rfl, fun _ hc => absurd hc List.not_mem_nil, laidOut_joined _⟩
    refine tokenize_of_isLayout ?_ ?_ hjoined ?_
    · intro token htoken
      exact isToken_of_mem_tokenize htoken
    · intro token htoken
      exact closed_of_mem_tokenize htoken
    · intro last hlast _
      exact suffix_joined hlast

/-- In front of the comma there is no gap, and the last literal is never
closed. -/
theorem open_literal_is_found_again :
    IsLayout ["a", ",", "'b  '", "'c "] "\ta, 'b  '\n'c ".toList ∧
      tokenize "\ta, 'b  '\n'c " = ["a", ",", "'b  '", "'c "] := by
  have hgap : ∀ gap : List Char, gap.all isSeparator = true → IsGap gap :=
    fun _ hall => List.all_eq_true.mp hall
  have hopen : LaidOut ["'c "] ("'c ".toList ++ [] ++ []) :=
    .cons (hgap _ rfl) (fun _ => .inr fun _ hnext => by cases hnext) .nil
  have hliteral : LaidOut ["'b  '", "'c "] ("'b  '".toList ++ ['\n'] ++ _) :=
    .cons (hgap _ rfl) (by simp) hopen
  have hcomma : LaidOut [",", "'b  '", "'c "] (",".toList ++ [' '] ++ _) :=
    .cons (hgap _ rfl) (by simp) hliteral
  have hword : LaidOut ["a", ",", "'b  '", "'c "] ("a".toList ++ [] ++ _) :=
    .cons (hgap _ rfl) (by simp) hcomma
  have hlayout : IsLayout ["a", ",", "'b  '", "'c "] "\ta, 'b  '\n'c ".toList :=
    ⟨['\t'], _, by decide, hgap _ rfl, hword⟩
  have hfound : tokenize "a,'b  ' 'c " = ["a", ",", "'b  '", "'c "] := by decide
  refine ⟨hlayout, tokenize_inverts_every_layout.1 _ _ ?_ ?_ hlayout ?_⟩
  · intro token htoken
    rw [← hfound] at htoken
    exact isToken_of_mem_tokenize htoken
  · decide
  · decide

end CsvQuery
