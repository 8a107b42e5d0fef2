/-
Wrong tokens are reported where they stand.

A wrong token in a slot is read in the place of the right one.  So a clause
`Finds` the errors of the tokens in its own slots and leaves what it would
have left of the right tokens, whatever the wrong ones look like.  What it
finds beside the errors may be less than before: a condition or a number is
lost, which later clauses do not miss.  A number that is lost makes room for
another one, but no query gives it twice (`finds_constraint`).
-/
import CsvQuery.Proofs.Query.Slots
import CsvQuery.Proofs.Query.Language

namespace CsvQuery

open Grammar Clause

/-! ## Reading with errors -/

namespace Clause

section
variable {α β : Type} {tokens mid rest : List String}
  {errors others : List GrammarError}

/-- The clause finds the value and the errors, and leaves the rest. -/
def Finds (c : Clause α) (tokens : List String) (a : α)
    (errors : List GrammarError) (rest : List String) : Prop :=
  c tokens = ⟨some a, errors, rest⟩

theorem Reads.finds {c : Clause α} {a : α} (h : c.Reads tokens a rest) :
    c.Finds tokens a [] rest := h

theorem Finds.bind {c : Clause α} {next : α → Clause β} {a : α} {b : β}
    (h : c.Finds tokens a errors mid)
    (hnext : (next a).Finds mid b others rest) :
    (c >>= next).Finds tokens b (errors ++ others) rest := by
  show Clause.bind c next tokens = _
  unfold Finds at h hnext
  simp only [Clause.bind, h, hnext]

/-- After a clause without errors. -/
theorem Reads.bind {c : Clause α} {next : α → Clause β} {a : α} {b : β}
    (h : c.Reads tokens a mid) (hnext : (next a).Finds mid b others rest) :
    (c >>= next).Finds tokens b others rest :=
  h.finds.bind hnext

theorem Finds.map {c : Clause α} {a : α} (h : c.Finds tokens a errors rest)
    (f : α → β) :
    Finds (do let a ← c; return f a) tokens (f a) errors rest := by
  rw [← List.append_nil errors]
  exact h.bind (reads_pure_iff.mpr ⟨rfl, rfl⟩).finds

/-- A keyword is one token, right or wrong. -/
theorem finds_keyword {word : String} {expected : Expected}
    {fault : String → GrammarError} {slot : Slot} {token found : String}
    (hslip : Slip slot token found errors) (hfault : slot.fault = fault)
    (hright : Text.sameWord token word)
    (hwrong : ∀ wrong, slot.Refuses wrong → ¬ Text.sameWord wrong word) :
    (keyword word expected fault).Finds (found :: rest) () errors rest := by
  subst hfault
  have herrors : errors = if Text.sameWord found word then [] else [slot.fault found] := by
    cases hslip with
    | kept => rw [if_pos hright]
    | replaced hrefuses => rw [if_neg (hwrong found hrefuses)]
  subst herrors
  rfl

end
end Clause

/-! ## Conditions -/

theorem conditionOperator_slip {token found : String} {c : Comparison}
    {errors : List GrammarError} (htoken : token = c.symbol)
    (hslip : Slip .operator token found errors) :
    ∃ o, conditionOperator found = (o, errors) := by
  cases hslip with
  | kept => exact ⟨some c, conditionOperator_eq_iff.mpr ⟨c, rfl, htoken⟩⟩
  | replaced hrefuses =>
      have hnone : Comparison.ofSymbol? found = none := by
        cases hfound : Comparison.ofSymbol? found with
        | none => rfl
        | some c =>
            exact absurd (Comparison.ofSymbol?_eq_some_iff.mp hfound) (hrefuses c)
      exact ⟨none, by simp [conditionOperator, hnone, Slot.fault]⟩

/-- A value that is lost is not asked for its type. -/
theorem conditionValue_slip {token found value : String}
    {t : Option ValueType} {errors : List GrammarError}
    (htoken : token = inQuotes value) (haccepted : ∀ t' ∈ t, t'.accepts value)
    (hslip : Slip .value token found errors) :
    ∃ o, conditionValue found = (o, errors) ∧ valueErrors (some t) o = [] := by
  cases hslip with
  | kept =>
      exact ⟨some value, conditionValue_eq_iff.mpr ⟨value, rfl, htoken⟩,
        valueErrors_eq_nil_iff.mpr haccepted⟩
  | replaced hrefuses =>
      have hnone : Token.unquote? found.toList = none :=
        Token.unquote?_eq_none_iff.mpr hrefuses
      refine ⟨none, by simp [conditionValue, hnone, Slot.fault], ?_⟩
      cases t <;> rfl

theorem conditionOf_slip
    {table column operator value operator' value' : String} {c : Condition}
    {errors others : List GrammarError}
    (hc : IsCondition column operator value c) (htable : c.ref.table = table)
    (hoperator : Slip .operator operator operator' errors)
    (hvalue : Slip .value value value' others) :
    ∃ o, conditionOf (some table) column operator' value'
      = (o, errors ++ others) := by
  obtain ⟨href, htype⟩ := (Token.splitType_spec column c.ref c.valueType).mpr hc.column
  obtain ⟨op, hop⟩ := conditionOperator_slip hc.operator hoperator
  obtain ⟨v, hv, hmismatches⟩ := conditionValue_slip hc.value hc.accepted hvalue
  have hcolumn : conditionColumn (some table) column (Token.splitType column.toList).1
      = (some c.ref, []) := conditionColumn_eq_iff.mpr ⟨c.ref, rfl, href, htable⟩
  have ht := conditionType_eq_iff.mpr ⟨c.valueType, rfl, htype⟩
  refine ⟨_, Prod.ext rfl ?_⟩
  simp [conditionOf, hcolumn, ht, hop, hv, hmismatches]

/-- The last condition, and what follows it. -/
theorem conditions_last {column operator value : String} {rest : List String}
    (table : Option String) (after : Option Connective)
    (hcolumn : ¬ Token.startsConstraint column) (hrest : Follows rest) :
    conditions table after (column :: operator :: value :: rest)
      = ⟨some (conditionOf table column operator value).1.toList,
          (conditionOf table column operator value).2, rest⟩ := by
  cases rest with
  | nil => simp [conditions, hcolumn]
  | cons word rest => simp [conditions, hcolumn, hrest word rfl]

/-- A condition, and the one that it is joined to. -/
theorem conditions_joined {column operator value word : String}
    {k : Connective} {rest : List String} (table : Option String)
    (after : Option Connective) (hcolumn : ¬ Token.startsConstraint column)
    (hword : Text.sameWord word k.word) :
    ∃ add : List Condition → List Condition,
      conditions table after (column :: operator :: value :: word :: rest)
        = ⟨(conditions table (some k) rest).value.map add,
            (conditionOf table column operator value).2
              ++ (conditions table (some k) rest).errors,
            (conditions table (some k) rest).rest⟩ := by
  refine ⟨(((conditionOf table column operator value).1.map
    fun c => { c with joiner := some k }).toList ++ ·), ?_⟩
  simp [conditions, hcolumn, not_startsConstraint_of_connective hword,
    Token.connective?_eq_some_iff.mpr hword]

theorem finds_conditions {table : String} {tokens rest : List String}
    {cs : List Condition} (h : Conditions tokens cs)
    (htables : ∀ c ∈ cs, c.ref.table = table) (hrest : Follows rest)
    {after : Option Connective} {spoilt : List String}
    {errors : List GrammarError}
    (hspoils : Spoils (conditionSlots tokens) tokens spoilt errors) :
    ∃ found,
      (conditions (some table) after).Finds (spoilt ++ rest) found errors
        rest := by
  induction h generalizing after spoilt errors with
  | last hc _ =>
      obtain _ | ⟨_ | _ | ⟨hoperator, _ | _ | ⟨hvalue, ⟨⟩⟩⟩⟩ := hspoils
      have hcolumn := not_startsConstraint_of_quote hc.column.head?
      obtain ⟨o, ho⟩ :=
        conditionOf_slip hc (htables _ List.mem_cons_self) hoperator hvalue
      refine ⟨o.toList, ?_⟩
      simp only [Finds, List.cons_append, List.nil_append, conditions_last _ _ hcolumn hrest, ho,
        List.append_nil]
  | more hc _ hword _ ih =>
      rw [conditionSlots, if_neg (not_startsConstraint_of_connective hword)] at hspoils
      obtain _ | ⟨_ | _ | ⟨hoperator, _ | _ | ⟨hvalue, _ | ⟨hspoils⟩⟩⟩⟩ := hspoils
      have hcolumn := not_startsConstraint_of_quote hc.column.head?
      obtain ⟨htable, htables⟩ := List.forall_mem_cons.mp htables
      obtain ⟨o, ho⟩ := conditionOf_slip hc htable hoperator hvalue
      obtain ⟨found, hfound⟩ := ih htables hspoils
      obtain ⟨add, hadd⟩ := conditions_joined (some table) after hcolumn hword
      refine ⟨add found, ?_⟩
      simp only [Finds, List.cons_append] at hfound ⊢
      rw [hadd, hfound, ho]
      simp

theorem finds_whereClause {table : String} {wheres rest spoilt : List String}
    {cs : List Condition} {errors : List GrammarError} (h : Where wheres cs)
    (htables : ∀ c ∈ cs, c.ref.table = table) (hrest : Follows rest)
    (hspoils : Spoils (clauseSlots wheres) wheres spoilt errors) :
    ∃ found,
      (whereClause (some table)).Finds (spoilt ++ rest) found errors
        rest := by
  cases h with
  | absent =>
      cases hspoils
      refine ⟨[], Reads.finds ((reads_whereClause_iff hrest).mpr ⟨[], rfl, .absent, ?_⟩)⟩
      exact fun c hc => absurd hc List.not_mem_nil
  | present hword hconditions =>
      rw [clauseSlots, if_pos hword] at hspoils
      cases hspoils with
      | fixed hspoils =>
          obtain ⟨found, hfound⟩ := finds_conditions hconditions htables hrest hspoils
          refine ⟨found, ?_⟩
          simp only [Finds, List.cons_append, whereClause, if_pos hword]
          exact hfound

/-! ## Limit, offset and sort order -/

theorem Constraints.Apart.number? {a b : Constraints} (h : a.Apart b)
    (bound : Bound) :
    a.number? bound = none ∨ b.number? bound = none := by
  cases bound with
  | limit => exact h.limit
  | offset => exact h.offset

theorem finds_boundValue {bound : Bound} {wrong : String} (rest : List String)
    (hwrong : (Slot.number bound).Refuses wrong) :
    (boundValue bound).Finds (wrong :: rest) none
      [(Slot.number bound).fault wrong] rest := by
  have hnone : Integer.readCount? wrong = none := hwrong
  refine (reads_next_iff.mpr rfl).bind ?_
  rw [hnone]
  rfl

/-- A clause that has not been given before. -/
theorem finds_once {α β : Type} {value : Clause (Option α)}
    {earlier : Option β} {error : GrammarError} (add : Option α → Constraints)
    {o : Option α} {tokens rest : List String} {errors : List GrammarError}
    (hearlier : earlier = none) (hvalue : value.Finds tokens o errors rest) :
    Finds (do
        let o ← value
        report (repeatError earlier error)
        return add o) tokens (add o) errors rest := by
  have hreport : (report (repeatError earlier error)).Reads rest () rest :=
    reads_report_iff.mpr ⟨repeatError_eq_nil_iff.mpr hearlier, rfl⟩
  have hend : Finds (do report (repeatError earlier error); return add o) rest (add o) [] rest :=
    hreport.bind (reads_pure_iff.mpr ⟨rfl, rfl⟩).finds
  rw [← List.append_nil errors]
  exact hvalue.bind hend

/-- A number that is lost is as if its clause were not there. -/
theorem finds_lost_number {bound : Bound} {table : Option String}
    {word wrong : String} {found : Constraints} (rest : List String)
    (hword : Text.sameWord word bound.word)
    (hfound : found.number? bound = none)
    (hwrong : (Slot.number bound).Refuses wrong) :
    (constraint table word found).Finds (wrong :: rest) found
      [(Slot.number bound).fault wrong] rest := by
  have hvalue := finds_boundValue rest hwrong
  cases bound with
  | limit =>
      rw [constraint, if_pos ((sameWord_of_sameWord hword).mpr (by decide))]
      exact finds_once (fun o => { found with limit := o.or found.limit }) hfound hvalue
  | offset =>
      rw [constraint, if_neg (mt (sameWord_of_sameWord hword).mp (by decide)),
        if_pos ((sameWord_of_sameWord hword).mpr (by decide))]
      exact finds_once (fun o => { found with offset := o.or found.offset }) hfound hvalue

/-- A constraint with a wrong number is read as none, any other one as
itself. -/
theorem finds_constraint {table word : String}
    {tokens spoilt rest : List String} {own found : Constraints}
    {errors : List GrammarError} (h : Constraint (word :: tokens) own)
    (happart : own.Apart found) (htable : ∀ ref ∈ own.refs, ref.table = table)
    (hrest : Follows rest)
    (hspoils : Spoils (constraintSlots (word :: tokens)) (word :: tokens)
      (word :: spoilt) errors) :
    ∃ own', (own' = own ∨ own' = {}) ∧
      (constraint (some table) word found).Finds (spoilt ++ rest)
      (own'.merge found) errors
        rest := by
  have hkept : Finds (constraint (some table) word found) (tokens ++ rest) (own.merge found) []
      rest :=
    ((reads_constraint_iff hrest).mpr ⟨word :: tokens, own, rfl, h, happart, htable, rfl⟩).finds
  rcases h.number_or_fixed with ⟨bound, _, number, heq, hword, -, hsome⟩ | ⟨-, hfixed⟩
  · obtain ⟨rfl, rfl⟩ := List.cons.inj heq
    have hfound : found.number? bound = none :=
      (happart.number? bound).resolve_left (Option.isSome_iff_ne_none.mp hsome)
    rw [constraintSlots_number hword] at hspoils
    obtain _ | ⟨_ | _ | ⟨hslip, ⟨⟩⟩⟩ := hspoils
    rw [List.append_nil]
    cases hslip with
    | kept => exact ⟨own, .inl rfl, hkept⟩
    | replaced hrefuses =>
        have hempty : Constraints.merge {} found = found := by simp [Constraints.merge]
        refine ⟨{}, .inr rfl, ?_⟩
        rw [hempty]
        exact finds_lost_number rest hword hfound hrefuses
  · rw [constraintSlots_eq_fixed hfixed] at hspoils
    obtain ⟨heq, rfl⟩ := hspoils.of_fixed
    obtain ⟨-, rfl⟩ := List.cons.inj heq
    exact ⟨own, .inl rfl, hkept⟩

theorem finds_constraints {table : String} {tokens spoilt : List String}
    {own : Constraints} {errors : List GrammarError}
    (h : ConstraintList tokens own)
    (htables : ∀ ref ∈ own.refs, ref.table = table)
    (hspoils : Spoils (constraintSlots tokens) tokens spoilt errors) :
    ∀ {found : Constraints}, own.Apart found →
      ∃ all, (constraints (some table) found).Finds spoilt all errors [] := by
  induction h generalizing spoilt errors with
  | none =>
      intro found _
      cases hspoils
      exact ⟨found, by rw [Finds, constraints]; rfl⟩
  | @more first rest one others hone hothers happart ih =>
      intro found hfound
      rw [hone.slots_append] at hspoils
      obtain ⟨spoilt, spoiltRest, errors, further, rfl, rfl, hfirst, hrest⟩ :=
        hspoils.split (length_constraintSlots first)
      obtain ⟨word, tokens, rfl, -⟩ := hone.startsConstraint
      obtain ⟨spoilt, rfl⟩ := hfirst.constraint
      obtain ⟨honeFound, hothersFound⟩ := Constraints.apart_merge_iff.mp hfound.symm
      obtain ⟨one', hone', hconstraint⟩ := finds_constraint hone honeFound.symm
        (fun ref href => htables ref ((Constraints.mem_refs_merge happart).mpr (.inl href)))
        (hrest.follows hothers.follows) hfirst
      -- What has been found of this one is apart from the others, lost or not.
      have hapart : others.Apart (one'.merge found) := by
        refine Constraints.apart_merge_iff.mpr ⟨?_, hothersFound.symm⟩
        rcases hone' with rfl | rfl
        · exact happart.symm
        · exact Constraints.apart_empty others
      obtain ⟨all, hall⟩ := ih
        (fun ref href => htables ref ((Constraints.mem_refs_merge happart).mpr (.inr href)))
        hrest hapart
      refine ⟨all, ?_⟩
      rw [Finds, List.cons_append, constraints_cons]
      exact hconstraint.bind hall

/-! ## Whole queries -/

/-- What stands in the place of FROM ends the select list. -/
theorem Slip.noComma {token found : String} {errors : List GrammarError}
    (h : Slip .fromWord token found errors) (hfrom : Text.sameWord token "from")
    (rest : List String) : NoComma (found :: rest) := by
  cases h with
  | kept => exact noComma_of_sameWord hfrom (by decide)
  | replaced hrefuses =>
      rintro ⟨⟩
      exact hrefuses.2 rfl

theorem finds_queryClause {files : Files} {tokens spoilt : List String}
    {q : Query} {errors : List GrammarError} (h : Spells files tokens q)
    (htables : q.OneTable)
    (hspoils : Spoils (slots tokens) tokens spoilt errors) :
    ∃ found, (queryClause files).Finds spoilt found errors [] := by
  obtain @⟨_, wheres, tail, select, path, table, _, _, hhead, hwhere, htail⟩ := h
  obtain ⟨hselected, hcompared, hsorted⟩ := oneTable_iff.mp htables
  obtain ⟨hselectWord, hlist, hfromWord, hfile, hcsv, hasWord, htable⟩ := hhead
  rw [slots_parts hlist hfromWord hwhere htail.follows] at hspoils
  simp only [List.cons_append, List.nil_append, List.append_assoc] at hspoils
  obtain _ | _ | ⟨hselect, hspoils⟩ := hspoils
  obtain ⟨_, _, _, _, rfl, rfl, hitems, hsource⟩ := hspoils.split (length_fixedSlots _)
  obtain ⟨rfl, rfl⟩ := hitems.of_fixed
  obtain _ | _ | ⟨hfrom, _ | ⟨_ | _ | ⟨has, _ | ⟨hclauses⟩⟩⟩⟩ := hsource
  obtain ⟨_, _, _, _, rfl, rfl, hconditions, hconstraints⟩ :=
    hclauses.split (length_clauseSlots _)
  obtain ⟨cs, hcs⟩ :=
    finds_whereClause hwhere hcompared (hconstraints.follows htail.follows)
    hconditions
  obtain ⟨all, hall⟩ :=
    finds_constraints htail hsorted hconstraints (Constraints.apart_empty _)
  -- From here on every clause starts where it did before.
  refine ⟨{ select, path, table, conditions := cs, constraints := all }, ?_⟩
  refine Finds.bind (finds_keyword hselect rfl ?select ?notSelect) ?_
  case select => exact (sameWord_congr_right (by decide)).mp hselectWord
  case notSelect =>
      exact fun wrong hwrong => mt (sameWord_congr_right (by decide)).mp hwrong
  rw [List.nil_append]
  refine Reads.bind (reads_selectList_iff.mpr ⟨_, rfl, hlist, hfrom.noComma hfromWord _⟩) ?_
  refine Finds.bind (finds_keyword hfrom rfl ?source ?notSource) ?_
  case source => exact (sameWord_congr_right (by decide)).mp hfromWord
  case notSource =>
      exact fun wrong hwrong => mt (sameWord_congr_right (by decide)).mp hwrong.1
  refine Reads.bind (reads_filePath_iff.mpr ⟨_, rfl, hfile, hcsv⟩) ?_
  refine Finds.bind (finds_keyword has rfl ?name ?notName) ?_
  case name => exact (sameWord_congr_right (by decide)).mp hasWord
  case notName =>
      exact fun wrong hwrong => mt (sameWord_congr_right (by decide)).mp hwrong
  refine Reads.bind (reads_tableName_iff.mpr ⟨_, rfl, rfl, htable⟩) ?_
  refine Reads.bind ((reads_report_iff (u := ())).mpr ⟨?own, rfl⟩) ?_
  case own => exact selectMismatches_eq_nil_iff.mpr hselected
  refine Finds.bind hcs ?_
  exact hall.map _

/-- Wrong tokens in any slots of a query are reported, each by the error of
its slot and in their order, and nothing else is. -/
theorem wrong_tokens_are_reported_in_place {files : Files}
    {tokens : List String} {q : Query}
    (h : Query.ofTokens files tokens = .ok q) :
    (slots tokens).length = tokens.length ∧
    (slots tokens).reduceOption.Perm q.slots ∧
      ∀ spoilt errors, Spoils (slots tokens) tokens spoilt errors →
        Query.ofTokens files spoilt
          = if errors = [] then .ok q else .error errors := by
  have hspells := spells_of_ofTokens h
  refine ⟨length_slots tokens, perm_slots hspells, ?_⟩
  intro spoilt errors hspoils
  split
  · next hnil => rw [hspoils.eq_of_nil hnil, h]
  · next hne =>
      obtain ⟨found, hfound⟩ :=
        finds_queryClause hspells (oneTable_of_ofTokens h) hspoils
      exact ofTokens_eq_error hne (by rw [hfound])

/-- Wrong tokens that are words of other clauses: each of them is only wrong
where it stands. -/
theorem lookalikes_are_reported_in_place :
    let files : Files := fun _ => .ok (.file [])
    let tokens :=
      ["SELECT", "*", "FROM", "path:t.csv", "AS", "e", "WHERE", "'e.a'", "=",
        "'1'", "OFFSET", "2", "LIMIT", "5"]
    let spoilt :=
      ["FROM", "*", "AS", "path:t.csv", "WHERE", "e", "WHERE", "'e.a'", "AND",
        "LIMIT", "OFFSET", "LIMIT", "LIMIT", "5"]
    let errors : List GrammarError :=
      [.invalidSelect "FROM", .invalidFrom "AS", .invalidAs "WHERE",
        .invalidComparison "AND", .unquotedValue "LIMIT",
        .invalidBound (.notNumber .offset "LIMIT")]
    (∃ q, Query.ofTokens files tokens = .ok q) ∧
      Spoils (slots tokens) tokens spoilt errors ∧
      Query.ofTokens files spoilt = .error errors := by
  intro files tokens spoilt errors
  have hhead : Head files ("SELECT" :: ["*"] ++ ["FROM", "path:" ++ "t.csv", "AS", "e"]) [.all]
      ⟨"t.csv"⟩ "e" :=
    .intro (by decide) .star (by decide)
      (.bare (by decide) (Token.unquote?_eq_none_iff.mp (by decide)))
      ⟨⟨.file [], rfl, rfl⟩, "csv".toList, by decide, by decide⟩ (by decide) ⟨by decide, by decide⟩
  have hwhere : Where ["WHERE", "'e.a'", "=", "'1'"] [⟨⟨"e", "a"⟩, none, .eq, "1", none⟩] :=
    .present (by decide)
      (.last ⟨.untyped ⟨by decide, by decide, by decide⟩, rfl, rfl, by simp⟩ rfl)
  have hlimit : ConstraintList ["LIMIT", "5"] { limit := some 5 } :=
    .more (.limit (by decide) (by decide)) .none (Constraints.apart_empty _)
  have htail : ConstraintList ["OFFSET", "2", "LIMIT", "5"] { limit := some 5, offset := some 2 } :=
    .more (.offset (by decide) (by decide)) hlimit ⟨.inl rfl, .inr rfl, .inl rfl⟩
  have hspells := Spells.intro hhead hwhere htail
  obtain ⟨q, hq⟩ : ∃ q, Query.ofTokens files tokens = .ok q := by
    refine ⟨_, ofTokens_eq_ok_iff_reads.mpr ⟨[], reads_query_iff.mpr ⟨rfl, hspells, ?_⟩⟩⟩
    simp [Query.OneTable, Query.refs, Constraints.refs, SelectItem.ref?]
  have hslots : slots tokens = [some .selectWord, none, some .fromWord, none, some .asWord, none,
      none, none, some .operator, some .value, none, some (.number .offset), none,
      some (.number .limit)] := rfl
  have hspoils : Spoils (slots tokens) tokens spoilt errors := by
    rw [hslots]
    refine .slot (.replaced (by decide)) (.fixed ?_)
    refine .slot (.replaced (by decide)) (.fixed ?_)
    refine .slot (.replaced (by decide)) (.fixed (.fixed (.fixed ?_)))
    refine .slot (.replaced (by decide)) (.slot (.replaced (by decide)) (.fixed ?_))
    refine .slot (.replaced (by decide)) (.fixed ?_)
    exact .slot .kept .nil
  obtain ⟨-, -, hreported⟩ := wrong_tokens_are_reported_in_place hq
  exact ⟨⟨q, hq⟩, hspoils, hreported spoilt errors hspoils⟩

end CsvQuery
