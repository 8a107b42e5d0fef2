/-
A query is read from every text that it can be written as.

What is written spells the query, part by part, and constraints in any order
come to the same (`merged_perm`).  The tokenizer finds just these tokens, as
none of them is cut (`IsLexeme`): whatever could be cut stands in quotes.
-/
import CsvQuery.Proofs.Number.Decimals
import CsvQuery.Proofs.Query.Language
import CsvQuery.Proofs.Query.Pieces
import Mathlib.Data.List.Pairwise

namespace CsvQuery

open Grammar Piece

/-! ## References -/

section
variable {q : Query} {ref : ColumnRef}

theorem mem_refs_of_select (h : .column ref ∈ q.select) : ref ∈ q.refs := by
  simp only [Query.refs, List.mem_append, List.mem_filterMap]
  exact .inl (.inl ⟨_, h, rfl⟩)

theorem mem_refs_of_condition {c : Condition}
    (h : c ∈ q.conditions) : c.ref ∈ q.refs := by
  simp only [Query.refs, List.mem_append]
  exact .inl (.inr (List.mem_map_of_mem h))

theorem mem_refs_of_order {keys : SortOrder}
    (h : .order keys ∈ q.constraints.parts)
    (href : ref ∈ keys.columns) : ref ∈ q.refs := by
  have horder : q.constraints.order = some keys := by
    simpa [Constraints.parts] using h
  have hrefs : ref ∈ q.constraints.refs := by
    rw [Constraints.refs, horder]
    exact href
  exact List.mem_append_right _ hrefs

end

/-- A number that is written is read again. -/
theorem readCount?_toString {n : Nat} (h : n < Integer.unsignedLimit) :
    Integer.readCount? (toString n) = some n := by
  have hlist : (toString n).toList = Nat.toDigits 10 n := Nat.toList_repr
  rw [Integer.readCount?, hlist]
  unfold Integer.unsigned?
  split
  next ds hplus =>
      exact absurd (hplus ▸ List.mem_cons_self) (Integer.notMem_toDigits (n := n) rfl)
  next =>
    rw [Integer.digits?_toDigits]
    exact if_pos h

theorem refs_commaSeparated : ∀ {refs : List ColumnRef}, refs ≠ [] →
    (∀ ref ∈ refs, IsRef ref.token ref) →
    Refs (commaSeparated (refs.map ColumnRef.token)) refs
  | [], hne, _ => absurd rfl hne
  | [ref], _, h => .one (h ref List.mem_cons_self)
  | ref :: next :: refs, _, h => by
      obtain ⟨href, hrest⟩ := List.forall_mem_cons.mp h
      exact .more href (refs_commaSeparated (List.cons_ne_nil next refs) hrest)

section
variable {files : Files} {q : Query} (wf : q.WellFormed files)
include wf

theorem isRef_token {ref : ColumnRef}
    (h : ref ∈ q.refs) : IsRef ref.token ref := by
  obtain ⟨hne, -, hplain⟩ := wf.table
  obtain ⟨hcolumn, hdot, -⟩ := wf.columns ref h
  refine ⟨rfl, ?_, hcolumn, hdot⟩
  rw [wf.own ref h]
  refine ⟨hne, ?_⟩
  intro hmem
  exact (hplain '.' hmem).2.1 rfl

theorem selectList_tokens :
    SelectList (commaSeparated (q.select.map SelectItem.token)) q.select := by
  rcases wf.select with hall | ⟨refs, hrefs, hne, hnodup⟩
  · rw [hall]
    exact .star
  · rw [hrefs, List.map_map]
    refine .columns (refs_commaSeparated hne ?_) hnodup
    intro ref href
    exact isRef_token wf (mem_refs_of_select (hrefs ▸ List.mem_map_of_mem href))

theorem isCondition_tokens {c : Condition} (h : c ∈ q.conditions) :
    IsCondition c.columnToken c.operator.symbol (inQuotes c.value) c := by
  have href : IsRef c.ref.token c.ref := isRef_token wf (mem_refs_of_condition h)
  refine ⟨?_, rfl, rfl, (wf.values c h).2⟩
  unfold Condition.columnToken
  cases htype : c.valueType with
  | none => exact .untyped href
  | some t => exact .typed t href

end

theorem conditions_of_spelled : ∀ {cs : List Condition} {tokens : List String},
    Joined cs → cs ≠ [] →
    (∀ c ∈ cs, IsCondition c.columnToken c.operator.symbol
      (inQuotes c.value) c) →
    Spelled (cs.flatMap Condition.pieces) tokens → Conditions tokens cs
  | [], _, _, hne, _, _ => absurd rfl hne
  | [c], tokens, hjoined, _, h, hspelled => by
      have hnone : c.joiner = none := hjoined
      simp only [List.flatMap_singleton, Condition.pieces, hnone, Option.toList_none, List.map_nil,
        spelled_token_iff, spelled_nil_iff] at hspelled
      obtain ⟨_, rfl, _, rfl, _, rfl, rfl⟩ := hspelled
      exact .last (h c List.mem_cons_self) hnone
  | c :: next :: cs, tokens, hjoined, _, h, hspelled => by
      obtain ⟨hsome, hrest⟩ := hjoined
      obtain ⟨k, hk⟩ := Option.isSome_iff_exists.mp hsome
      obtain ⟨hc, hcs⟩ := List.forall_mem_cons.mp h
      rw [List.flatMap_cons] at hspelled
      obtain ⟨front, back, rfl, hfront, hback⟩ := hspelled.split
      simp only [Condition.pieces, hk, Option.toList_some, List.map_cons, List.map_nil,
        spelled_token_iff, spelled_word_iff, spelled_nil_iff] at hfront
      obtain ⟨_, rfl, _, rfl, _, rfl, word, _, rfl, hword, rfl⟩ := hfront
      exact .more hc hk hword (conditions_of_spelled hrest (List.cons_ne_nil next cs) hcs hback)

theorem where_of_spelled {cs : List Condition} {tokens : List String}
    (hjoined : Joined cs)
    (h : ∀ c ∈ cs,
      IsCondition c.columnToken c.operator.symbol (inQuotes c.value) c)
    (hspelled : Spelled (wherePieces cs) tokens) : Where tokens cs := by
  unfold wherePieces at hspelled
  split at hspelled
  next hempty =>
    obtain rfl := List.isEmpty_iff.mp hempty
    obtain rfl := spelled_nil_iff.mp hspelled
    exact .absent
  next hne =>
    obtain ⟨word, rest, rfl, hword, hrest⟩ := spelled_word_iff.mp hspelled
    refine .present ((sameWord_congr_right (by decide)).mp hword) ?_
    exact conditions_of_spelled hjoined (by simpa using hne) h hrest

/-! ## Constraints in any order -/

/-- A constraint on its own. -/
def ConstraintPart.constraints : ConstraintPart → Constraints
  | .limit n => { limit := some n }
  | .offset n => { offset := some n }
  | .order keys => { order := some keys }

/-- All of some constraints. -/
def merged (parts : List ConstraintPart) : Constraints :=
  parts.foldr (fun part c => part.constraints.merge c) {}

theorem merged_parts (c : Constraints) : merged c.parts = c := by
  obtain ⟨limit, offset, order⟩ := c
  cases limit <;> cases offset <;> cases order <;> rfl

/-- Two constraints that are not of one kind. -/
def ConstraintPart.Apart (a b : ConstraintPart) : Prop :=
  a.constraints.Apart b.constraints

instance : Std.Symm ConstraintPart.Apart :=
  ⟨fun _ _ h => h.symm⟩

theorem apart_parts (c : Constraints) :
    c.parts.Pairwise ConstraintPart.Apart := by
  have hoffset : ∀ n m, (ConstraintPart.limit n).Apart (.offset m) :=
    fun _ _ => ⟨.inr rfl, .inl rfl, .inl rfl⟩
  have horder : ∀ n keys, (ConstraintPart.limit n).Apart (.order keys) :=
    fun _ _ => ⟨.inr rfl, .inl rfl, .inl rfl⟩
  have horder' : ∀ n keys, (ConstraintPart.offset n).Apart (.order keys) :=
    fun _ _ => ⟨.inl rfl, .inr rfl, .inl rfl⟩
  obtain ⟨limit, offset, order⟩ := c
  cases limit <;> cases offset <;> cases order <;>
    simp [Constraints.parts, hoffset, horder, horder']

theorem apart_merged {a : Constraints} {parts : List ConstraintPart}
    (h : ∀ part ∈ parts, a.Apart part.constraints) :
    a.Apart (merged parts) := by
  induction parts with
  | nil => exact a.apart_empty
  | cons part parts ih =>
      obtain ⟨hpart, hparts⟩ := List.forall_mem_cons.mp h
      exact Constraints.apart_merge_iff.mpr ⟨hpart, ih hparts⟩

/-- The order of constraints does not matter. -/
theorem merged_perm {parts parts' : List ConstraintPart}
    (h : parts.Perm parts') (apart : parts.Pairwise ConstraintPart.Apart) :
    merged parts = merged parts' := by
  refine h.foldr_eq' ?_ _
  intro a ha b hb c
  by_cases hab : b = a
  · rw [hab]
  · have hapart : b.constraints.Apart a.constraints := apart.forall hb ha hab
    rw [← Constraints.merge_assoc, Constraints.merge_comm hapart,
      Constraints.merge_assoc]

/-- A constraint that can be written. -/
def ConstraintPart.WellFormed : ConstraintPart → Prop
  | .limit n => n < Integer.unsignedLimit
  | .offset n => n < Integer.unsignedLimit
  | .order keys => keys.columns ≠ [] ∧ ∀ ref ∈ keys.columns, IsRef ref.token ref

theorem constraint_of_spelled {part : ConstraintPart} (wf : part.WellFormed)
    {ascending : Bool} {tokens : List String}
    (h : Spelled (part.pieces ascending) tokens) :
    Constraint tokens part.constraints := by
  cases part with
  | limit n =>
      simp only [ConstraintPart.pieces, spelled_word_iff, spelled_token_iff,
        spelled_nil_iff] at h
      obtain ⟨word, _, rfl, hword, _, rfl, rfl⟩ := h
      exact .limit ((sameWord_congr_right (by decide)).mp hword) (readCount?_toString wf)
  | offset n =>
      simp only [ConstraintPart.pieces, spelled_word_iff, spelled_token_iff,
        spelled_nil_iff] at h
      obtain ⟨word, _, rfl, hword, _, rfl, rfl⟩ := h
      exact .offset ((sameWord_congr_right (by decide)).mp hword) (readCount?_toString wf)
  | order keys =>
      obtain ⟨columns, direction⟩ := keys
      obtain ⟨hne, hrefs⟩ := wf
      simp only [ConstraintPart.pieces, spelled_word_iff] at h
      obtain ⟨word, _, rfl, hword, byWord, _, rfl, hby, hrest⟩ := h
      obtain ⟨keys, way, rfl, hkeys, hway⟩ := hrest.split
      obtain rfl := spelled_tokens_iff.mp hkeys
      refine .order ((sameWord_congr_right (by decide)).mp hword)
        ((sameWord_congr_right (by decide)).mp hby) (refs_commaSeparated hne hrefs) ?_
      cases direction with
      | ascending =>
          cases ascending with
          | true =>
              obtain ⟨word, _, rfl, hword, hnil⟩ := spelled_word_iff.mp hway
              obtain rfl := spelled_nil_iff.mp hnil
              exact .ascending ((sameWord_congr_right (by decide)).mp hword)
          | false =>
              obtain rfl := spelled_nil_iff.mp hway
              exact .absent
      | descending =>
          obtain ⟨word, _, rfl, hword, hnil⟩ := spelled_word_iff.mp hway
          obtain rfl := spelled_nil_iff.mp hnil
          exact .descending ((sameWord_congr_right (by decide)).mp hword)

theorem constraintList_of_spelled {parts : List ConstraintPart}
    {ascending : Bool} {tokens : List String}
    (wf : ∀ part ∈ parts, part.WellFormed)
    (apart : parts.Pairwise ConstraintPart.Apart)
    (h : Spelled (parts.flatMap (ConstraintPart.pieces ascending)) tokens) :
    ConstraintList tokens (merged parts) := by
  induction parts generalizing tokens with
  | nil =>
      obtain rfl := spelled_nil_iff.mp h
      exact .none
  | cons part parts ih =>
      obtain ⟨hpart, hparts⟩ := List.forall_mem_cons.mp wf
      obtain ⟨hfirst, hothers⟩ := List.pairwise_cons.mp apart
      rw [List.flatMap_cons] at h
      obtain ⟨front, back, rfl, hfront, hback⟩ := h.split
      exact .more (constraint_of_spelled hpart hfront) (ih hparts hothers hback)
        (apart_merged hfirst)

/-! ## Whole queries -/

theorem quoteMark_mem_inQuotes (text : String) :
    Token.quoteMark ∈ (inQuotes text).toList := by
  simp

/-- What stands behind `path:`. -/
theorem Path.isFile_token {path : Path} (hne : path.text ≠ "")
    (hmark : Token.quoteMark ∉ path.text.toList) (quoted : Bool) :
    ∃ file, path.token quoted = "path:" ++ file ∧ IsFile file path := by
  cases quoted with
  | true => exact ⟨_, rfl, .quoted path.text⟩
  | false =>
      refine ⟨path.text, rfl, .bare hne ?_⟩
      intro inner hinner
      exact hmark (hinner ▸ quoteMark_mem_inQuotes inner)

section
variable {files : Files} {q : Query} (wf : q.WellFormed files)
include wf

theorem isTable_of_wellFormed : IsTable q.table := by
  obtain ⟨-, hreserved, hplain⟩ := wf.table
  exact ⟨hreserved, fun h => (hplain _ h).1 rfl, fun h => (hplain _ h).2.1 rfl,
    fun h => (hplain _ h).2.2.1 rfl⟩

theorem wellFormed_of_mem_parts {part : ConstraintPart}
    (h : part ∈ q.constraints.parts) :
    part.WellFormed := by
  cases part with
  | limit n => exact wf.limit n (by simpa [Constraints.parts] using h)
  | offset n => exact wf.offset n (by simpa [Constraints.parts] using h)
  | order keys =>
      refine ⟨wf.order keys (by simpa [Constraints.parts] using h), ?_⟩
      intro ref href
      exact isRef_token wf (mem_refs_of_order h href)

/-- What is written spells the query. -/
theorem spells_of_spelled {quoted ascending : Bool}
    {parts : List ConstraintPart} (perm : parts.Perm q.constraints.parts)
    {tokens : List String}
    (h : Spelled (q.pieces quoted ascending parts) tokens) :
    Spells files tokens q := by
  obtain ⟨_, tail, rfl, hfront, htail⟩ := h.split
  obtain ⟨_, wheres, rfl, hhead, hwheres⟩ := hfront.split
  obtain ⟨_, names, rfl, hselect, hnames⟩ := hhead.split
  obtain ⟨selectWord, list, rfl, hselectWord, hlist⟩ := spelled_word_iff.mp hselect
  obtain rfl := spelled_tokens_iff.mp hlist
  simp only [spelled_word_iff, spelled_token_iff, spelled_nil_iff] at hnames
  obtain ⟨fromWord, _, rfl, hfromWord, _, rfl, asWord, _, rfl, hasWord, _, rfl, rfl⟩ :=
    hnames
  obtain ⟨hne, hmark, hcsv⟩ := wf.path
  obtain ⟨file, hfile, hisFile⟩ := Path.isFile_token hne hmark quoted
  have happart : parts.Pairwise ConstraintPart.Apart :=
    (perm.pairwise_iff Constraints.Apart.symm).mpr (apart_parts _)
  have hconstraints : ConstraintList tail q.constraints := by
    rw [← merged_parts q.constraints, ← merged_perm perm happart]
    refine constraintList_of_spelled ?_ happart htail
    intro part hpart
    exact wellFormed_of_mem_parts wf (perm.mem_iff.mp hpart)
  rw [hfile]
  exact .intro (.intro ((sameWord_congr_right (by decide)).mp hselectWord) (selectList_tokens wf)
    ((sameWord_congr_right (by decide)).mp hfromWord) hisFile hcsv
    ((sameWord_congr_right (by decide)).mp hasWord) (isTable_of_wellFormed wf))
    (where_of_spelled wf.joined (fun c hc => isCondition_tokens wf hc) hwheres) hconstraints

end

/-! ## Tokens that are not cut -/

namespace Token

/-- A word is not cut, whatever its case. -/
theorem isLexeme_of_sameWord {token word : String}
    (h : Text.sameWord token word) (hne : word ≠ "")
    (hword : ∀ c ∈ word.toList.map Char.toLower, Plain c) : IsLexeme token := by
  rw [sameWord_iff] at h
  refine isLexeme_of_plain ?_ ?_
  · rintro rfl
    have hnil : word.toList = [] := List.map_eq_nil_iff.mp h.symm
    exact hne (by simpa using hnil)
  · intro c hc
    exact plain_of_toLower (hword _ (h ▸ List.mem_map_of_mem hc))

theorem isLexeme_toString (n : Nat) : IsLexeme (toString n) := by
  have hlist : (toString n).toList = Nat.toDigits 10 n := Nat.toList_repr
  refine isLexeme_of_plain ?_ ?_
  · rw [← String.toList_inj.ne, hlist]
    exact Nat.toDigits_ne_nil
  · intro c hc
    have hdigit : c.isDigit = true :=
      Nat.isDigit_of_mem_toDigits (by decide) (by decide) (hlist ▸ hc)
    have hnone : (meaningful.all fun d => !d.isDigit) = true := by decide
    rw [plain_iff]
    intro hmeaningful
    simpa [hdigit] using List.all_eq_true.mp hnone c hmeaningful

theorem unbroken_inQuotes {text : String} (h : quoteMark ∉ text.toList) :
    Unbroken (inQuotes text).toList := by
  rw [toList_inQuotes]
  exact unbroken_quoted h

theorem isLexeme_inQuotes {text : String} (h : quoteMark ∉ text.toList) :
    IsLexeme (inQuotes text) := by
  refine .inr ⟨?_, unbroken_inQuotes h⟩
  rw [← String.toList_inj.ne, toList_inQuotes]
  simp

end Token

open Token

/-- The piece is not cut, however it is spelled. -/
def Piece.IsLexeme : Piece → Prop
  | .word text => text ≠ "" ∧ ∀ c ∈ text.toList.map Char.toLower, Plain c
  | .token text => Token.IsLexeme text

/-- The words that a query is written in. -/
def words : List String :=
  ["SELECT", "FROM", "AS", "WHERE", "AND", "OR", "LIMIT", "OFFSET", "ORDER", "BY", "ASC", "DESC"]

theorem isLexeme_word {word : String}
    (h : word ∈ words) : (Piece.word word).IsLexeme := by
  have hplain : ∀ word ∈ words, word ≠ "" ∧
      ((word.toList.map Char.toLower).all fun c => !meaningful.contains c) = true := by
    decide
  exact ⟨(hplain word h).1, plain_of_all (hplain word h).2⟩

theorem Piece.Spelled.isLexeme {pieces : List Piece} {tokens : List String}
    (h : Spelled pieces tokens) (lexemes : ∀ piece ∈ pieces, piece.IsLexeme) :
    ∀ token ∈ tokens, Token.IsLexeme token := by
  induction h with
  | nil => simp
  | word hword _ ih =>
      obtain ⟨⟨hne, hplain⟩, hpieces⟩ := List.forall_mem_cons.mp lexemes
      exact List.forall_mem_cons.mpr ⟨isLexeme_of_sameWord hword hne hplain, ih hpieces⟩
  | token _ ih =>
      obtain ⟨htoken, hpieces⟩ := List.forall_mem_cons.mp lexemes
      exact List.forall_mem_cons.mpr ⟨htoken, ih hpieces⟩

theorem isLexeme_commaSeparated : ∀ {tokens : List String},
    (∀ token ∈ tokens, Token.IsLexeme token) →
      ∀ piece ∈ (commaSeparated tokens).map Piece.token, piece.IsLexeme
  | [], _ => by simp [commaSeparated]
  | [only], h => by simpa [commaSeparated, Piece.IsLexeme] using h
  | first :: next :: tokens, h => by
      obtain ⟨hfirst, hrest⟩ := List.forall_mem_cons.mp h
      refine List.forall_mem_cons.mpr ⟨hfirst, List.forall_mem_cons.mpr ⟨.inl rfl, ?_⟩⟩
      exact isLexeme_commaSeparated hrest

section
variable {files : Files} {q : Query} (wf : q.WellFormed files)
include wf

theorem quoteMark_notMem_text {ref : ColumnRef} (h : ref ∈ q.refs) :
    quoteMark ∉ ref.text.toList := by
  obtain ⟨-, -, hplain⟩ := wf.table
  obtain ⟨-, -, hmark⟩ := wf.columns ref h
  have htable : quoteMark ∉ ref.table.toList := by
    rw [wf.own ref h]
    intro hmem
    exact (hplain _ hmem).1 rfl
  have hdot : quoteMark ≠ '.' := by decide
  simp [ColumnRef.text, htable, hmark, hdot]

theorem isLexeme_select :
    ∀ piece ∈ (commaSeparated (q.select.map SelectItem.token)).map Piece.token,
      piece.IsLexeme := by
  refine isLexeme_commaSeparated ?_
  intro token htoken
  obtain ⟨item, hitem, rfl⟩ := List.mem_map.mp htoken
  cases item with
  | all => exact isLexeme_of_plain (by decide) (plain_of_all (by decide))
  | column ref =>
      exact isLexeme_inQuotes (quoteMark_notMem_text wf (mem_refs_of_select hitem))

theorem isLexeme_path {quoted : Bool}
    (plain : quoted = false → q.path.IsPlain) :
    Token.IsLexeme (q.path.token quoted) := by
  obtain ⟨-, hmark, -⟩ := wf.path
  refine .inr ⟨?_, ?_⟩
  · simp [Path.token, ← String.toList_inj]
  · have hprefix : Unbroken "path:".toList :=
      unbroken_of_plain (plain_of_all (by decide))
    rw [Path.token, String.toList_append]
    refine hprefix.append ?_
    cases quoted with
    | true => exact unbroken_inQuotes hmark
    | false =>
        refine unbroken_of_plain ?_
        intro c hc
        obtain ⟨hseparator, hcomma⟩ := plain rfl c hc
        exact ⟨fun h => hmark (h ▸ hc), hseparator, hcomma⟩

theorem isLexeme_condition {c : Condition} (h : c ∈ q.conditions) :
    ∀ piece ∈ c.pieces, piece.IsLexeme := by
  have htext : quoteMark ∉ c.ref.text.toList :=
    quoteMark_notMem_text wf (mem_refs_of_condition h)
  have hcolumn : Token.IsLexeme c.columnToken := by
    unfold Condition.columnToken
    cases c.valueType with
    | none => exact isLexeme_inQuotes htext
    | some t =>
        have htype : Unbroken ("::" ++ t.word).toList := by
          cases t <;> exact unbroken_of_plain (plain_of_all (by decide))
        dsimp only
        rw [String.append_assoc]
        refine .inr ⟨?_, ?_⟩
        · simp [ColumnRef.token, inQuotes]
        · rw [String.toList_append]
          exact (unbroken_inQuotes htext).append htype
  have hsymbol : Token.IsLexeme c.operator.symbol := by
    cases c.operator <;> exact isLexeme_of_plain (by decide) (plain_of_all (by decide))
  have hvalue : Token.IsLexeme (inQuotes c.value) := isLexeme_inQuotes (wf.values c h).1
  have hjoiner : ∀ joiner ∈ c.joiner.toList, (Piece.word joiner.word).IsLexeme := by
    intro joiner _
    cases joiner <;> exact isLexeme_word (by decide)
  simp only [Condition.pieces, List.forall_mem_cons, List.forall_mem_map]
  exact ⟨hcolumn, hsymbol, hvalue, hjoiner⟩

theorem isLexeme_constraint {part : ConstraintPart}
    (h : part ∈ q.constraints.parts) (ascending : Bool) :
    ∀ piece ∈ part.pieces ascending, piece.IsLexeme := by
  cases part with
  | limit n =>
      simp only [ConstraintPart.pieces, List.forall_mem_cons]
      exact ⟨isLexeme_word (by decide), isLexeme_toString n, by simp⟩
  | offset n =>
      simp only [ConstraintPart.pieces, List.forall_mem_cons]
      exact ⟨isLexeme_word (by decide), isLexeme_toString n, by simp⟩
  | order keys =>
      have hkeys : ∀ piece ∈ (commaSeparated (keys.columns.map ColumnRef.token)).map Piece.token,
          piece.IsLexeme := by
        refine isLexeme_commaSeparated ?_
        intro text htext
        obtain ⟨ref, href, rfl⟩ := List.mem_map.mp htext
        exact isLexeme_inQuotes (quoteMark_notMem_text wf (mem_refs_of_order h href))
      have hway : ∀ piece ∈ directionPieces ascending keys.direction, piece.IsLexeme := by
        have hascending : (Piece.word "ASC").IsLexeme := isLexeme_word (by decide)
        have hdescending : (Piece.word "DESC").IsLexeme := isLexeme_word (by decide)
        cases keys.direction <;> cases ascending <;>
          simp [directionPieces, hascending, hdescending]
      simp only [ConstraintPart.pieces, List.forall_mem_cons, List.forall_mem_append]
      exact ⟨isLexeme_word (by decide), isLexeme_word (by decide), hkeys, hway⟩

theorem isLexeme_pieces {quoted ascending : Bool}
    {parts : List ConstraintPart} (plain : quoted = false → q.path.IsPlain)
    (perm : parts.Perm q.constraints.parts) :
    ∀ piece ∈ q.pieces quoted ascending parts, piece.IsLexeme := by
  have htable : Token.IsLexeme q.table := by
    obtain ⟨hne, -, hplain⟩ := wf.table
    refine isLexeme_of_plain hne ?_
    intro c hc
    obtain ⟨hmark, -, hcomma, hseparator⟩ := hplain c hc
    exact ⟨hmark, hseparator, hcomma⟩
  have hwhere : ∀ piece ∈ wherePieces q.conditions, piece.IsLexeme := by
    unfold wherePieces
    split
    · simp
    · refine List.forall_mem_cons.mpr ⟨isLexeme_word (by decide), ?_⟩
      intro piece hpiece
      obtain ⟨c, hc, hpiece⟩ := List.mem_flatMap.mp hpiece
      exact isLexeme_condition wf hc piece hpiece
  have hconstraints : ∀ piece ∈ parts.flatMap (ConstraintPart.pieces ascending),
      piece.IsLexeme := by
    intro piece hpiece
    obtain ⟨part, hpart, hpiece⟩ := List.mem_flatMap.mp hpiece
    exact isLexeme_constraint wf (perm.mem_iff.mp hpart) ascending piece hpiece
  simp only [Query.pieces, List.forall_mem_append, List.forall_mem_cons]
  exact ⟨⟨⟨⟨isLexeme_word (by decide), isLexeme_select wf⟩, isLexeme_word (by decide),
    isLexeme_path wf plain, isLexeme_word (by decide), htable, by simp⟩, hwhere⟩, hconstraints⟩

end

/-! ## Reading what is written -/

/-- A query that can be written is read from every text that it can be
written as, and there is such a text. -/
theorem written_query_is_read {files : Files} {q : Query}
    (wf : q.WellFormed files) :
    q.IsWritten q.print ∧ ∀ text, q.IsWritten text →
      Query.parse files text = .ok q := by
  refine ⟨q.isWritten_print, ?_⟩
  rintro text
    ⟨quoted, ascending, parts, tokens, gap, body, plain, perm, spelled, hgap, hbody, htext⟩
  have htokens : tokenize text = tokens :=
    tokenize_laidOut hgap hbody htext (spelled.isLexeme (isLexeme_pieces wf plain perm))
  rw [Query.parse, htokens, ofTokens_eq_ok_iff_reads]
  exact ⟨[], reads_query_iff.mpr ⟨rfl, spells_of_spelled wf perm spelled, wf.own⟩⟩

/-- Names, values and a path that look like other parts of a query. -/
def lookalike : Query where
  select := [.column ⟨"e", "x, y::int"⟩, .column ⟨"e", "LIMIT"⟩]
  path := ⟨"my files/a,b.csv"⟩
  table := "e"
  conditions := [⟨⟨"e", "::"⟩, some .int, .gtEq, " 12\n", some .or⟩,
    ⟨⟨"e", "a\tb"⟩, none, .eq, "e.x::int AND, ", none⟩]
  constraints :=
    { limit := some 18446744073709551615
      offset := some 0
      order := some ⟨[⟨"e", "LIMIT"⟩, ⟨"e", "LIMIT"⟩], .ascending⟩ }

theorem lookalike_is_read :
    Query.parse (fun _ => .ok (.file [])) lookalike.print = .ok lookalike := by
  have wf : lookalike.WellFormed fun _ => .ok (.file []) :=
    { table := ⟨by decide, by decide, by simp [lookalike, quoteMark, isSeparator]⟩
      select := .inr ⟨[⟨"e", "x, y::int"⟩, ⟨"e", "LIMIT"⟩], rfl, by decide, by decide⟩
      own := by unfold Query.OneTable; decide
      columns := by decide
      values := by decide +kernel
      joined := ⟨rfl, rfl⟩
      limit := by simp [lookalike, Integer.unsignedLimit]
      offset := by simp [lookalike, Integer.unsignedLimit]
      order := by simp [lookalike]
      path := ⟨by decide, by decide, ⟨.file [], rfl, rfl⟩, "csv".toList, by decide, by decide⟩ }
  exact (written_query_is_read wf).2 _ (written_query_is_read wf).1

end CsvQuery
