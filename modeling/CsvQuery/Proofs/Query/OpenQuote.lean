/-
A quote left open is reported unless the last token hides it.

A text with an odd number of quote marks leaves an open quote, and its last
token holds an odd number of marks.  Names, words and numbers hold none, so a
query that is accepted all the same ends with a value or with a sort key.
Both are taken for quoted when a quote mark stands at both of their ends,
whatever stands in between: `'O'Brien'` is the value `O'Brien`.
`HidesQuote` says when that happens, and it is the only exception.
-/
import CsvQuery.Proofs.Query.Language
import CsvQuery.Proofs.Token.QuoteMarks
import CsvQuery.Proofs.Number.Characters

namespace CsvQuery

open Grammar Clause

/-! ## Queries up to their last token -/

namespace Grammar

/-- Conditions up to the value of the last one, which is no number. -/
inductive BeforeValue : List String → List ColumnRef → Prop
  | last {column operator : String} {ref : ColumnRef} {t : Option ValueType}
      {o : Comparison} :
      IsColumn column ref t → (∀ declared ∈ t, declared = .string) →
        operator = o.symbol →
        BeforeValue [column, operator] [ref]
  | more {column operator value word : String} {c : Condition} {k : Connective}
      {tokens : List String} {refs : List ColumnRef} :
      IsCondition column operator value c → Text.sameWord word k.word →
        BeforeValue tokens refs →
        BeforeValue (column :: operator :: value :: word :: tokens)
          (c.ref :: refs)

/-- Sort keys up to the last one. -/
inductive BeforeKey : List String → List ColumnRef → Prop
  | first : BeforeKey [] []
  | more {token : String} {ref : ColumnRef} {tokens : List String}
      {refs : List ColumnRef} :
      IsRef token ref → BeforeKey tokens refs →
        BeforeKey (token :: "," :: tokens) (ref :: refs)

/-- Constraints up to the last key of a sort order, `c` being those in front
of it. -/
inductive BeforeLastKey : List String → Constraints → List ColumnRef → Prop
  | intro {earlier keys : List String} {orderWord byWord : String}
      {c : Constraints}
      {refs : List ColumnRef} :
      ConstraintList earlier c → c.order = none →
        Text.sameWord orderWord "order" →
      Text.sameWord byWord "by" → BeforeKey keys refs →
        BeforeLastKey (earlier ++ orderWord :: byWord :: keys) c refs

/-- A query that lacks the value of its last condition. -/
inductive AwaitsValue (files : Files) (table : String) : List String → Prop
  | intro {head wheres : List String} {word : String}
      {select : List SelectItem} {path : Path}
      {compared : List ColumnRef} :
      Head files head select path table → Text.sameWord word "where" →
      BeforeValue wheres compared →
      (∀ ref ∈ select.filterMap SelectItem.ref? ++ compared,
        ref.table = table) →
        AwaitsValue files table (head ++ word :: wheres)

/-- A query that lacks the last key of its sort order. -/
inductive AwaitsKey (files : Files) (table : String) : List String → Prop
  | intro {head wheres tail : List String}
      {select : List SelectItem} {path : Path}
      {conditions : List Condition} {c : Constraints}
      {sorted : List ColumnRef} :
      Head files head select path table → Where wheres conditions →
      BeforeLastKey tail c sorted →
      (∀ ref ∈ select.filterMap SelectItem.ref? ++ conditions.map Condition.ref ++ sorted,
        ref.table = table) →
        AwaitsKey files table (head ++ wheres ++ tail)

/-- The last token stands where a value or a sort key is awaited, and a quote
mark stands at both of its ends. -/
inductive HidesQuote (files : Files) : List String → Prop
  | value {front : List String} {table : String} (text : String) :
      AwaitsValue files table front →
        HidesQuote files (front ++ [inQuotes text])
  | key {front : List String} {last : String} {ref : ColumnRef} :
      AwaitsKey files ref.table front → IsRef last ref →
        HidesQuote files (front ++ [last])

/-! ## Completing a query -/

theorem BeforeValue.conditions {tokens : List String} {refs : List ColumnRef}
    (h : BeforeValue tokens refs) (text : String) :
    ∃ cs, Conditions (tokens ++ [inQuotes text]) cs ∧
      cs.map Condition.ref = refs := by
  induction h with
  | @last column operator ref t o hcolumn hdeclared hoperator =>
      refine ⟨[⟨ref, t, o, text, none⟩], .last ⟨hcolumn, hoperator, rfl, ?_⟩ rfl, rfl⟩
      intro declared ht
      rw [hdeclared declared ht]
      rfl
  | @more column operator value word c k tokens refs hc hword _ ih =>
      obtain ⟨cs, hcs, rfl⟩ := ih
      exact ⟨{ c with joiner := some k } :: cs,
        .more (c := { c with joiner := some k }) (hc.withJoiner _) rfl hword hcs, rfl⟩

theorem BeforeKey.refs {tokens : List String} {refs : List ColumnRef}
    {last : String} {ref : ColumnRef} (h : BeforeKey tokens refs)
    (hlast : IsRef last ref) :
    Refs (tokens ++ [last]) (refs ++ [ref]) := by
  induction h with
  | first => exact .one hlast
  | more href _ ih => exact .more href ih

theorem ConstraintList.append {tokens others : List String}
    {c d : Constraints} (hc : ConstraintList tokens c)
    (hd : ConstraintList others d) (happart : c.Apart d) :
    ConstraintList (tokens ++ others) (c.merge d) := by
  induction hc with
  | none => simpa [Constraints.merge] using hd
  | more hone _ hrest ih =>
      obtain ⟨hd₁, hd₂⟩ := Constraints.apart_merge_iff.mp happart.symm
      rw [List.append_assoc, Constraints.merge_assoc]
      exact .more hone (ih hd₂.symm) (Constraints.apart_merge_iff.mpr ⟨hrest, hd₁.symm⟩)

theorem BeforeLastKey.constraints {tokens : List String} {c : Constraints}
    {refs : List ColumnRef} {last : String} {ref : ColumnRef}
    (h : BeforeLastKey tokens c refs) (hlast : IsRef last ref) :
    ConstraintList (tokens ++ [last])
      (c.merge { order := some ⟨refs ++ [ref], .ascending⟩ }) := by
  obtain ⟨hearlier, horder, hword, hby, hbefore⟩ := h
  have hkeys := Constraint.order hword hby (hbefore.refs hlast) .absent
  have hlist := ConstraintList.more hkeys .none (Constraints.apart_empty _)
  simpa using hearlier.append hlist ⟨.inr rfl, .inr rfl, .inl horder⟩

theorem BeforeLastKey.refs {tokens : List String} {c : Constraints}
    {refs : List ColumnRef} {ref : ColumnRef}
    (h : BeforeLastKey tokens c refs) :
    (c.merge { order := some ⟨refs ++ [ref], .ascending⟩ }).refs
      = refs ++ [ref] := by
  obtain ⟨-, horder, -, -, -⟩ := h
  simp [Constraints.refs, Constraints.merge, horder]

end Grammar

/-- Such a query is accepted, however many quote marks are open. -/
theorem Grammar.HidesQuote.accepted {files : Files} {tokens : List String}
    (h : HidesQuote files tokens) :
    ∃ q, Query.ofTokens files tokens = .ok q := by
  suffices hspells : ∃ q, Spells files tokens q ∧ q.OneTable by
    obtain ⟨q, hq, htable⟩ := hspells
    exact ⟨q, ofTokens_eq_ok_iff_reads.mpr ⟨[], reads_query_iff.mpr ⟨rfl, hq, htable⟩⟩⟩
  cases h with
  | value text hawaits =>
      obtain ⟨hhead, hword, hbefore, htables⟩ := hawaits
      obtain ⟨cs, hconditions, rfl⟩ := hbefore.conditions text
      rw [List.forall_mem_append, List.forall_mem_map] at htables
      refine ⟨_, by simpa using Spells.intro hhead (.present hword hconditions) .none, ?_⟩
      exact oneTable_iff.mpr ⟨htables.1, htables.2, by simp [Constraints.refs]⟩
  | key hawaits hlast =>
      obtain ⟨hhead, hwhere, hbefore, htables⟩ := hawaits
      rw [List.forall_mem_append, List.forall_mem_append,
        List.forall_mem_map] at htables
      obtain ⟨⟨hselected, hcompared⟩, hsorted⟩ := htables
      refine ⟨_, by simpa using Spells.intro hhead hwhere (hbefore.constraints hlast), ?_⟩
      refine oneTable_iff.mpr ⟨hselected, hcompared, ?_⟩
      rw [hbefore.refs, List.forall_mem_append]
      exact ⟨hsorted, by simp⟩

/-! ## Tokens without quote marks -/

theorem quoteMark_notMem_of_sameWord {token word : String}
    (h : Text.sameWord token word)
    (hword : Token.quoteMark ∉ word.toList.map Char.toLower) :
    Token.quoteMark ∉ token.toList := by
  intro hmem
  rw [sameWord_iff] at h
  exact hword (h ▸ List.mem_map_of_mem hmem)

/-- A value with a quote mark in it is no number. -/
theorem eq_string_of_accepts {t : ValueType} {value : String}
    (h : t.accepts value)
    (hmark : Token.quoteMark ∈ value.toList) : t = .string := by
  cases t with
  | int => simp [ValueType.accepts, foreign_quoteMark.readInteger?_eq_none hmark] at h
  | float => simp [ValueType.accepts, foreign_quoteMark.readDecimal?_eq_none hmark] at h
  | string => rfl

theorem Token.marks_inQuotes (text : String) :
    marks (inQuotes text).toList = marks text.toList + 2 := by
  rw [toList_inQuotes, marks_quoteMark_cons, marks_append, marks_quoteMark_cons,
    marks_nil]

/-! ## The last token of an accepted query -/

namespace Grammar

section
variable {tokens front : List String} {last : String}

theorem IsCondition.beforeValue {column operator value : String}
    {c : Condition} (h : IsCondition column operator value c)
    (hodd : Token.marks value.toList % 2 = 1) :
    BeforeValue [column, operator] [c.ref] := by
  refine .last h.column ?_ h.operator
  intro t ht
  refine eq_string_of_accepts (h.accepted t ht) (Token.quoteMark_mem_of_odd ?_)
  rw [h.value, Token.marks_inQuotes] at hodd
  omega

theorem Head.exists_last {files : Files} {select : List SelectItem}
    {path : Path} {table : String} (h : Head files tokens select path table) :
    ∃ front, tokens = front ++ [table] ∧ IsTable table := by
  obtain ⟨-, -, -, -, -, -, htable⟩ := h
  rename_i selectWord fromWord file asWord list
  exact ⟨selectWord :: list ++ [fromWord, "path:" ++ file, asWord], by simp, htable⟩

/-- The last token of the conditions is a value. -/
theorem Conditions.exists_last {cs : List Condition}
    (h : Conditions tokens cs) :
    ∃ front last, tokens = front ++ [last] ∧ (Token.marks last.toList % 2 = 1 →
      BeforeValue front (cs.map Condition.ref) ∧
      ∃ text, last = inQuotes text) := by
  induction h with
  | @last column operator value c hc _ =>
      exact ⟨[column, operator], value, rfl, fun hodd => ⟨hc.beforeValue hodd, c.value, hc.value⟩⟩
  | @more column operator value word c k tokens cs hc _ hword _ ih =>
      obtain ⟨front, last, rfl, hlast⟩ := ih
      refine ⟨column :: operator :: value :: word :: front, last, rfl, fun hodd => ?_⟩
      obtain ⟨hbefore, htext⟩ := hlast hodd
      exact ⟨.more hc hword hbefore, htext⟩

theorem Refs.exists_last {refs : List ColumnRef} (h : Refs tokens refs) :
    ∃ front last before ref, tokens = front ++ [last] ∧ refs = before ++ [ref] ∧
      BeforeKey front before ∧ IsRef last ref := by
  induction h with
  | @one token ref href => exact ⟨[], token, [], ref, rfl, rfl, .first, href⟩
  | @more token ref tokens refs href _ ih =>
      obtain ⟨front, last, before, ref', rfl, rfl, hbefore, hlast⟩ := ih
      exact ⟨token :: "," :: front, last, ref :: before, ref', rfl, rfl, .more href hbefore, hlast⟩

/-- The last token of a constraint is a number, the word of a direction, or a
sort key, and the first two hold no quote mark. -/
theorem Constraint.exists_last {c : Constraints} (h : Constraint tokens c) :
    ∃ front last, tokens = front ++ [last] ∧ (Token.quoteMark ∈ last.toList →
      ∃ before ref, BeforeLastKey front {} before ∧ IsRef last ref ∧
        c = { order := some ⟨before ++ [ref], .ascending⟩ }) := by
  cases h with
  | @limit word number n _ hn =>
      refine ⟨[word], number, rfl, fun hmark => ?_⟩
      rw [foreign_quoteMark.readCount?_eq_none hmark] at hn
      cases hn
  | @offset word number n _ hn =>
      refine ⟨[word], number, rfl, fun hmark => ?_⟩
      rw [foreign_quoteMark.readCount?_eq_none hmark] at hn
      cases hn
  | @order word byWord keys way columns direction hword hby hkeys hway =>
      cases hway with
      | absent =>
          obtain ⟨front, last, before, ref, rfl, rfl, hbefore, hlast⟩ :=
            hkeys.exists_last
          refine ⟨word :: byWord :: front, last, by simp, fun _ => ⟨before, ref, ?_, hlast, rfl⟩⟩
          exact .intro .none rfl hword hby hbefore
      | @ascending way hasc =>
          refine ⟨word :: byWord :: keys, way, rfl, fun hmark => ?_⟩
          exact absurd hmark (quoteMark_notMem_of_sameWord hasc (by decide))
      | @descending way hdesc =>
          refine ⟨word :: byWord :: keys, way, rfl, fun hmark => ?_⟩
          exact absurd hmark (quoteMark_notMem_of_sameWord hdesc (by decide))

/-- Another constraint in front. -/
theorem BeforeLastKey.cons {first : List String} {one c : Constraints}
    {refs : List ColumnRef} (h : BeforeLastKey tokens c refs)
    (hone : Constraint first one) (happart : one.Apart c)
    (horder : one.order = none) :
    BeforeLastKey (first ++ tokens) (one.merge c) refs := by
  obtain ⟨hearlier, hnone, hword, hby, hkeys⟩ := h
  rw [← List.append_assoc]
  exact .intro (.more hone hearlier happart) (by simp [Constraints.merge, horder, hnone])
    hword hby hkeys

theorem ConstraintList.exists_last {c : Constraints}
    (h : ConstraintList tokens c) (hne : tokens ≠ []) :
    ∃ front last, tokens = front ++ [last] ∧ (Token.quoteMark ∈ last.toList →
      ∃ d before ref, BeforeLastKey front d before ∧ IsRef last ref ∧
        c = d.merge { order := some ⟨before ++ [ref], .ascending⟩ }) := by
  induction h with
  | none => exact absurd rfl hne
  | @more first rest one others hone hothers happart ih =>
      -- The last token is in this constraint only if no other follows.
      by_cases hrest : rest = []
      · subst hrest
        obtain rfl := hothers.eq_empty_of_nil
        obtain ⟨front, last, rfl, hlast⟩ := hone.exists_last
        refine ⟨front, last, by simp, fun hmark => ?_⟩
        obtain ⟨before, ref, hbefore, href, rfl⟩ := hlast hmark
        exact ⟨{}, before, ref, hbefore, href, by simp [Constraints.merge]⟩
      · obtain ⟨front, last, rfl, hlast⟩ := ih hrest
        refine ⟨first ++ front, last, by simp, fun hmark => ?_⟩
        obtain ⟨d, before, ref, hbefore, href, rfl⟩ := hlast hmark
        obtain ⟨hd, hsort⟩ := Constraints.apart_merge_iff.mp happart
        have horder : one.order = Option.none := hsort.order.resolve_right (by simp)
        exact ⟨one.merge d, before, ref, hbefore.cons hone hd horder, href,
          (Constraints.merge_assoc _ _ _).symm⟩

end
end Grammar

/-- An accepted query whose last token is unbalanced hides it. -/
theorem hidesQuote_of_accepted {files : Files} {front : List String}
    {last : String} {q : Query}
    (h : Query.ofTokens files (front ++ [last]) = .ok q)
    (hodd : Token.marks last.toList % 2 = 1) :
    HidesQuote files (front ++ [last]) := by
  have hspells := spells_of_ofTokens h
  have htables := oneTable_of_ofTokens h
  have hmark := Token.quoteMark_mem_of_odd hodd
  generalize htokens : front ++ [last] = tokens at hspells ⊢
  obtain ⟨hhead, hwhere, htail⟩ := hspells
  obtain ⟨hselected, hcompared, hsorted⟩ := oneTable_iff.mp htables
  rename_i head wheres tail select path table conditions constraints
  by_cases hempty : tail = []
  · subst hempty
    rw [List.append_nil] at htokens ⊢
    cases hwhere with
    | absent =>
        -- The last token is the name of the table.
        obtain ⟨before, rfl, htable⟩ := hhead.exists_last
        rw [List.append_nil] at htokens
        obtain ⟨-, rfl⟩ := List.append_singleton_inj.mp htokens
        exact absurd hmark htable.plain.1
    | @present word wheres _ hword hconditions =>
        obtain ⟨before, value, rfl, hlast⟩ := hconditions.exists_last
        rw [← List.cons_append, ← List.append_assoc] at htokens ⊢
        obtain ⟨rfl, rfl⟩ := List.append_singleton_inj.mp htokens
        obtain ⟨hbefore, text, rfl⟩ := hlast hodd
        refine .value text (.intro hhead hword hbefore ?_)
        rw [List.forall_mem_append, List.forall_mem_map]
        exact ⟨hselected, hcompared⟩
  · obtain ⟨before, key, rfl, hlast⟩ := htail.exists_last hempty
    rw [← List.append_assoc] at htokens ⊢
    obtain ⟨rfl, rfl⟩ := List.append_singleton_inj.mp htokens
    obtain ⟨d, sorted, ref, hbefore, href, rfl⟩ := hlast hmark
    rw [hbefore.refs, List.forall_mem_append] at hsorted
    obtain ⟨hkeys, hkey⟩ := hsorted
    obtain rfl : ref.table = table := by simpa using hkey
    refine .key (.intro hhead hwhere hbefore ?_) href
    rw [List.forall_mem_append, List.forall_mem_append, List.forall_mem_map]
    exact ⟨⟨hselected, hcompared⟩, hkeys⟩

/-- A quote left open is reported exactly if the last token does not hide
it. -/
theorem openQuote_reported_iff (files : Files) (sql : String)
    (h : Token.marks sql.toList % 2 = 1) :
    (∃ errors, Query.parse files sql = .error errors) ↔
      ¬ HidesQuote files (tokenize sql) := by
  unfold Query.parse
  constructor
  · rintro ⟨errors, herrors⟩ hhides
    obtain ⟨q, hq⟩ := hhides.accepted
    rw [hq] at herrors
    cases herrors
  · intro hnot
    obtain ⟨front, last, htokens, hodd⟩ := tokenize_eq_append_of_odd h
    cases hparse : Query.ofTokens files (tokenize sql) with
    | error errors => exact ⟨errors, rfl⟩
    | ok q =>
        rw [htokens] at hparse hnot
        exact absurd (hidesQuote_of_accepted hparse hodd) hnot

/-- Behind an apostrophe the rest of the query is swallowed, and no quote mark
ends it. -/
theorem swallowed_limit_reported :
    Token.marks "SELECT * FROM path:t.csv AS e WHERE 'e.a' = 'O'Brien' LIMIT 2".toList % 2 = 1 ∧
      ¬ HidesQuote (fun _ => .ok (.file []))
        (tokenize "SELECT * FROM path:t.csv AS e WHERE 'e.a' = 'O'Brien' LIMIT 2") := by
  have hodd : Token.marks
      "SELECT * FROM path:t.csv AS e WHERE 'e.a' = 'O'Brien' LIMIT 2".toList % 2 = 1 := by
    decide
  refine ⟨hodd, (openQuote_reported_iff _ _ hodd).mp ⟨[.unquotedValue "'O'Brien' LIMIT 2"], ?_⟩⟩
  exact ofTokens_eq_error (by decide) (by decide +kernel)

/-- A value with an apostrophe in it leaves a quote open and is accepted. -/
theorem apostrophe_accepted :
    Token.marks "SELECT * FROM path:t.csv AS e WHERE 'e.a' = 'O'Brien'".toList
      % 2 = 1 ∧
      Query.parse (fun _ => .ok (.file []))
        "SELECT * FROM path:t.csv AS e WHERE 'e.a' = 'O'Brien'"
        = .ok {
            select := [.all], path := ⟨"t.csv"⟩, table := "e",
            conditions := [⟨⟨"e", "a"⟩, none, .eq, "O'Brien", none⟩], constraints := {} } := by
  constructor
  · decide
  · exact ofTokens_eq_ok (by decide +kernel) (by decide +kernel)

end CsvQuery
