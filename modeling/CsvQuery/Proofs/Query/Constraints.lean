/-
Reading limit, offset and sort order.

The reader collects the constraints from the left and remembers which it has
found.  `reads_constraints_iff` says that what it adds to those found is the
`merge` of a list of constraints that are apart from them: a constraint given a
second time is always reported.
-/
import CsvQuery.Proofs.Query.SelectList

namespace CsvQuery

open Grammar Clause

/-! ## Merging -/

namespace Constraints

variable {a b c : Constraints}

theorem Apart.symm (h : a.Apart b) : b.Apart a :=
  ⟨h.limit.symm, h.offset.symm, h.order.symm⟩

theorem merge_assoc (a b c : Constraints) :
    (a.merge b).merge c = a.merge (b.merge c) := by
  simp [merge, Option.or_assoc]

theorem merge_comm (h : a.Apart b) : a.merge b = b.merge a := by
  obtain ⟨hlimit, hoffset, horder⟩ := h
  unfold merge
  congr 1
  · rcases hlimit with h | h <;> simp [h]
  · rcases hoffset with h | h <;> simp [h]
  · rcases horder with h | h <;> simp [h]

theorem apart_merge_iff : a.Apart (b.merge c) ↔ a.Apart b ∧ a.Apart c := by
  constructor
  · rintro ⟨hlimit, hoffset, horder⟩
    simp only [merge, Option.or_eq_none_iff] at hlimit hoffset horder
    exact ⟨⟨hlimit.imp_right And.left, hoffset.imp_right And.left, horder.imp_right And.left⟩,
      ⟨hlimit.imp_right And.right, hoffset.imp_right And.right, horder.imp_right And.right⟩⟩
  · rintro ⟨⟨hl, ho, hs⟩, hl', ho', hs'⟩
    refine ⟨?_, ?_, ?_⟩ <;> simp only [merge, Option.or_eq_none_iff]
    · exact or_and_left.mpr ⟨hl, hl'⟩
    · exact or_and_left.mpr ⟨ho, ho'⟩
    · exact or_and_left.mpr ⟨hs, hs'⟩

theorem apart_empty (a : Constraints) :
    a.Apart {} := ⟨.inr rfl, .inr rfl, .inr rfl⟩

@[simp] theorem merge_empty (a : Constraints) : a.merge {} = a := by
  simp [merge]

theorem mem_refs_merge (h : a.Apart b) {ref : ColumnRef} :
    ref ∈ (a.merge b).refs ↔ ref ∈ a.refs ∨ ref ∈ b.refs := by
  unfold refs merge
  rcases h.order with h | h <;> simp [h]

end Constraints

/-! ## One constraint -/

theorem reads_boundValue_iff {bound : Bound} {tokens rest : List String}
    {o : Option Nat} :
    (boundValue bound).Reads tokens o rest ↔
      ∃ token n, o = some n ∧ tokens = token :: rest ∧
        Integer.readCount? token = some n := by
  unfold boundValue
  rw [reads_bind_iff]
  constructor
  · rintro ⟨token, mid, hnext, h⟩
    obtain rfl := reads_next_iff.mp hnext
    cases hn : Integer.readCount? token with
    | none =>
        simp only [hn, reads_bind_iff, reads_report_iff] at h
        obtain ⟨-, -, ⟨habsurd, -⟩, -⟩ := h
        cases habsurd
    | some n =>
        simp only [hn, reads_pure_iff] at h
        obtain ⟨rfl, rfl⟩ := h
        exact ⟨token, n, rfl, rfl, hn⟩
  · rintro ⟨token, n, rfl, rfl, hn⟩
    refine ⟨token, rest, reads_next_iff.mpr rfl, ?_⟩
    rw [hn]
    exact reads_pure_iff.mpr ⟨rfl, rfl⟩

theorem repeatError_eq_nil_iff {α : Type} {earlier : Option α}
    {error : GrammarError} :
    repeatError earlier error = [] ↔ earlier = none := by
  cases earlier <;> simp [repeatError]

theorem sortKey_eq_iff {table token : String} {o : Option ColumnRef} :
    sortKey (some table) token = (o, []) ↔
      ∃ ref, o = some ref ∧ IsRef token ref ∧ ref.table = table := by
  unfold sortKey
  simp only [← Token.columnRef_eq_ok_iff]
  cases hcolumn : Token.columnRef token.toList with
  | error fault => simp
  | ok ref =>
      by_cases htable : ref.table = table
      · constructor
        · intro h
          simp only [mismatch, htable, if_pos, Prod.mk.injEq, and_true] at h
          exact ⟨ref, h.symm, rfl, htable⟩
        · rintro ⟨_, rfl, heq, -⟩
          cases heq
          simp [mismatch, htable]
      · constructor
        · intro h
          simp [mismatch, htable] at h
        · rintro ⟨_, rfl, heq, h⟩
          cases heq
          exact absurd h htable

/-- The key in front of the end of the list. -/
theorem lastKey_iff {table token : String} {key : Option ColumnRef}
    {errors : List GrammarError} {tail rest : List String}
    {o : Option (List ColumnRef)}
    (hkey : sortKey (some table) token = (key, errors)) (htail : NoComma tail) :
    (⟨some (key.map ([·])), errors, tail⟩ : Walk (Option (List ColumnRef)))
      = ⟨some o, [], rest⟩ ↔
      ∃ refs, o = some refs ∧ RefsThen (token :: tail) refs rest ∧
        ∀ ref ∈ refs, ref.table = table := by
  simp only [refsThen_cons_iff]
  constructor
  · intro h
    simp only [Walk.mk.injEq, Option.some.injEq] at h
    obtain ⟨rfl, rfl, rfl⟩ := h
    obtain ⟨ref, rfl, href, htable⟩ := sortKey_eq_iff.mp hkey
    exact ⟨[ref], rfl, ⟨ref, href, .inl ⟨rfl, rfl, htail⟩⟩, by simpa using htable⟩
  · rintro ⟨refs, rfl, ⟨ref, href, ⟨rfl, rfl, -⟩ | ⟨_, _, rfl, -⟩⟩, htable⟩
    · rw [sortKey_eq_iff.mpr ⟨ref, rfl, href, by simpa using htable⟩] at hkey
      cases hkey
      rfl
    · exact absurd rfl htail

theorem reads_sortKeys_iff {table : String} {tokens rest : List String}
    {o : Option (List ColumnRef)} :
    Reads (sortKeys (some table)) tokens o rest ↔
      ∃ refs, o = some refs ∧ RefsThen tokens refs rest ∧
        ∀ ref ∈ refs, ref.table = table := by
  unfold Reads
  fun_induction sortKeys (some table) tokens generalizing o with
  | case1 => simp
  | case2 token tail htoken =>
      simp only [refsThen_cons_iff]
      constructor
      · intro h
        simp at h
      · rintro ⟨refs, -, ⟨ref, href, -⟩, -⟩
        exact absurd htoken (not_startsConstraint_of_quote href.head?)
  | case3 token _ key errors hkey => exact lastKey_iff hkey (by simp [NoComma])
  | case4 token _ key errors hkey tail =>
      rename_i ih
      simp only [refsThen_cons_iff]
      rw [walk_map_eq_iff]
      constructor
      · rintro ⟨rfl, keys, hkeys, rfl⟩
        obtain ⟨ref, rfl, href, htable⟩ := sortKey_eq_iff.mp hkey
        obtain ⟨refs, rfl, hrefs, htables⟩ := ih.mp hkeys
        exact ⟨ref :: refs, rfl, ⟨ref, href, .inr ⟨tail, refs, rfl, rfl, hrefs⟩⟩,
          by simpa using ⟨htable, htables⟩⟩
      · rintro ⟨refs, rfl, ⟨ref, href, ⟨-, rfl, hno⟩ | ⟨_, refs, heq, rfl, hrefs⟩⟩, htables⟩
        · exact absurd rfl hno
        · cases heq
          rw [List.forall_mem_cons] at htables
          rw [sortKey_eq_iff.mpr ⟨ref, rfl, href, htables.1⟩] at hkey
          cases hkey
          exact ⟨rfl, some refs, ih.mpr ⟨refs, rfl, hrefs, htables.2⟩, rfl⟩
  | case5 token _ key errors hkey comma tail hcomma =>
      exact lastKey_iff hkey (by simpa [NoComma] using hcomma)

theorem reads_sortDirection_iff {tokens rest : List String}
    {direction : Direction} (hrest : Follows rest) :
    sortDirection.Reads tokens direction rest ↔
      ∃ way, tokens = way ++ rest ∧ SortDirection way direction := by
  cases tokens with
  | nil =>
      constructor
      · intro h
        cases h
        exact ⟨[], rfl, .absent⟩
      · rintro ⟨way, hway, hdirection⟩
        obtain ⟨rfl, rfl⟩ := List.nil_eq_append_iff.mp hway
        cases hdirection
        rfl
  | cons token tokens =>
      rw [Reads, sortDirection]
      constructor
      · intro h
        split at h
        · next hdesc =>
            cases h
            exact ⟨[token], rfl, .descending hdesc⟩
        · split at h
          · next hasc =>
              cases h
              exact ⟨[token], rfl, .ascending hasc⟩
          · cases h
            exact ⟨[], rfl, .absent⟩
      · rintro ⟨way, hway, hdirection⟩
        cases hdirection with
        | absent =>
            obtain rfl : token :: tokens = rest := hway
            rw [if_neg (hrest.not_sameWord (by decide)),
              if_neg (hrest.not_sameWord (by decide))]
            rfl
        | ascending hword =>
            obtain ⟨rfl, rfl⟩ := List.cons.inj hway
            rw [if_neg (mt (sameWord_of_sameWord hword).mp (by decide)), if_pos hword]
            rfl
        | descending hword =>
            obtain ⟨rfl, rfl⟩ := List.cons.inj hway
            rw [if_pos hword]
            rfl

theorem reads_byWord_iff {tokens rest : List String} {u : Unit} :
    byWord.Reads tokens u rest ↔
      ∃ token, tokens = token :: rest ∧ Text.sameWord token "by" := by
  cases tokens with
  | nil => simp [Reads, byWord, stop]
  | cons token tokens =>
      rw [Reads, byWord]
      constructor
      · intro h
        split at h
        · next hword =>
            cases h
            exact ⟨token, rfl, hword⟩
        · simp at h
      · rintro ⟨_, heq, hword⟩
        obtain ⟨rfl, rfl⟩ := List.cons.inj heq
        rw [if_pos hword]
        rfl

/-- What a sort direction leaves is no further key. -/
theorem Grammar.SortDirection.noComma {way rest : List String}
    {direction : Direction} (h : SortDirection way direction)
    (hrest : Follows rest) : NoComma (way ++ rest) := by
  cases h with
  | absent => exact hrest.noComma
  | ascending hword =>
      intro hcomma
      simp only [List.cons_append, List.head?_cons, Option.some.injEq] at hcomma
      subst hcomma
      exact absurd hword (by decide)
  | descending hword =>
      intro hcomma
      simp only [List.cons_append, List.head?_cons, Option.some.injEq] at hcomma
      subst hcomma
      exact absurd hword (by decide)

theorem reads_sortOrder_iff {table : String} {tokens rest : List String}
    {o : Option SortOrder} (hrest : Follows rest) :
    (sortOrder (some table)).Reads tokens o rest ↔
      ∃ token keys way columns direction, o = some { columns, direction } ∧
        tokens = token :: keys ++ way ++ rest ∧ Text.sameWord token "by" ∧
        Refs keys columns ∧
        SortDirection way direction ∧ ∀ ref ∈ columns, ref.table = table := by
  unfold sortOrder
  rw [reads_bind_iff]
  constructor
  · rintro ⟨_, _, hby, hbehindBy⟩
    obtain ⟨token, rfl, hword⟩ := reads_byWord_iff.mp hby
    obtain ⟨_, _, hkeys, hbehindKeys⟩ := reads_bind_iff.mp hbehindBy
    obtain ⟨columns, rfl, ⟨keys, rfl, hrefs, -⟩, htable⟩ := reads_sortKeys_iff.mp hkeys
    obtain ⟨direction, _, hdirection, hend⟩ := reads_bind_iff.mp hbehindKeys
    obtain ⟨rfl, rfl⟩ := reads_pure_iff.mp hend
    obtain ⟨way, rfl, hway⟩ := (reads_sortDirection_iff hrest).mp hdirection
    exact ⟨token, keys, way, columns, direction, rfl, by simp, hword, hrefs, hway, htable⟩
  · rintro ⟨token, keys, way, columns, direction, rfl, rfl, hword, hrefs, hway, htable⟩
    refine ⟨(), keys ++ (way ++ rest), reads_byWord_iff.mpr ⟨token, by simp, hword⟩, ?_⟩
    refine reads_bind_iff.mpr ⟨some columns, way ++ rest, reads_sortKeys_iff.mpr
      ⟨columns, rfl, ⟨keys, rfl, hrefs, hway.noComma hrest⟩, htable⟩, ?_⟩
    exact reads_bind_iff.mpr ⟨direction, rest,
      (reads_sortDirection_iff hrest).mpr ⟨way, rfl, hway⟩, reads_pure_iff.mpr ⟨rfl, rfl⟩⟩

/-! ## All constraints -/

/-- A constraint that must not have been given before. -/
theorem reads_once_iff {α β : Type} {value : Clause (Option α)}
    {earlier : Option β} {error : GrammarError} {add : Option α → Constraints}
    {c : Constraints} {tokens rest : List String} :
    Reads (do
        let o ← value
        report (repeatError earlier error)
        return add o) tokens c rest ↔
      earlier = none ∧ ∃ o, value.Reads tokens o rest ∧ c = add o := by
  constructor
  · intro h
    obtain ⟨o, _, hvalue, hbehind⟩ := reads_bind_iff.mp h
    obtain ⟨_, _, hreport, hend⟩ := reads_bind_iff.mp hbehind
    obtain ⟨hrepeat, rfl⟩ := reads_report_iff.mp hreport
    obtain ⟨rfl, rfl⟩ := reads_pure_iff.mp hend
    exact ⟨repeatError_eq_nil_iff.mp hrepeat, o, hvalue, rfl⟩
  · rintro ⟨hearlier, o, hvalue, rfl⟩
    refine reads_bind_iff.mpr ⟨o, rest, hvalue, reads_bind_iff.mpr ⟨(), rest, ?_, ?_⟩⟩
    · exact reads_report_iff.mpr ⟨repeatError_eq_nil_iff.mpr hearlier, rfl⟩
    · exact reads_pure_iff.mpr ⟨rfl, rfl⟩

theorem reads_constraint_iff {table token : String} {found c : Constraints}
    {tokens rest : List String} (hrest : Follows rest) :
    (constraint (some table) token found).Reads tokens c rest ↔
      ∃ front own, token :: tokens = front ++ rest ∧ Constraint front own ∧
        own.Apart found ∧
        (∀ ref ∈ own.refs, ref.table = table) ∧ c = own.merge found := by
  unfold constraint
  constructor
  · intro h
    split at h
    · next hword =>
        obtain ⟨hfound, o, hvalue, rfl⟩ := reads_once_iff.mp h
        obtain ⟨number, n, rfl, rfl, hn⟩ := reads_boundValue_iff.mp hvalue
        exact ⟨_, _, rfl, .limit hword hn, ⟨.inr hfound, .inl rfl, .inl rfl⟩,
          by simp [Constraints.refs], by simp [Constraints.merge]⟩
    · split at h
      · next hword =>
          obtain ⟨hfound, o, hvalue, rfl⟩ := reads_once_iff.mp h
          obtain ⟨number, n, rfl, rfl, hn⟩ := reads_boundValue_iff.mp hvalue
          exact ⟨_, _, rfl, .offset hword hn, ⟨.inl rfl, .inr hfound, .inl rfl⟩,
            by simp [Constraints.refs], by simp [Constraints.merge]⟩
      · split at h
        · next hword =>
            obtain ⟨hfound, o, horder, rfl⟩ := reads_once_iff.mp h
            obtain ⟨byWord, keys, way, columns, direction, rfl, rfl, hby, hkeys, hway, htable⟩ :=
              (reads_sortOrder_iff hrest).mp horder
            exact ⟨_, _, rfl, .order hword hby hkeys hway, ⟨.inl rfl, .inl rfl, .inr hfound⟩,
              htable, by simp [Constraints.merge]⟩
        · obtain ⟨_, _, hreport, -⟩ := reads_bind_iff.mp h
          exact absurd (reads_report_iff.mp hreport).1 (by simp)
  · rintro ⟨front, own, heq, hown, happart, htable, rfl⟩
    cases hown with
    | limit hword hn =>
        obtain ⟨rfl, rfl⟩ := List.cons.inj heq
        rw [if_pos hword]
        refine reads_once_iff.mpr ⟨happart.limit.resolve_left (by simp), _,
          reads_boundValue_iff.mpr ⟨_, _, rfl, rfl, hn⟩, by simp [Constraints.merge]⟩
    | offset hword hn =>
        obtain ⟨rfl, rfl⟩ := List.cons.inj heq
        rw [if_neg (mt (sameWord_of_sameWord hword).mp (by decide)), if_pos hword]
        exact reads_once_iff.mpr ⟨happart.offset.resolve_left (by simp), _,
          reads_boundValue_iff.mpr ⟨_, _, rfl, rfl, hn⟩, by simp [Constraints.merge]⟩
    | order hword hby hkeys hway =>
        obtain ⟨rfl, rfl⟩ := List.cons.inj heq
        rw [if_neg (mt (sameWord_of_sameWord hword).mp (by decide)),
          if_neg (mt (sameWord_of_sameWord hword).mp (by decide)), if_pos hword]
        exact reads_once_iff.mpr ⟨happart.order.resolve_left (by simp), _,
          (reads_sortOrder_iff hrest).mpr ⟨_, _, _, _, _, rfl, by simp, hby, hkeys, hway, htable⟩,
          by simp [Constraints.merge]⟩

theorem Grammar.Constraint.startsConstraint {tokens : List String}
    {c : Constraints} (h : Constraint tokens c) :
    ∃ token rest, tokens = token :: rest ∧
      Token.startsConstraint token := by
  cases h with
  | limit hword _ => exact ⟨_, _, rfl, startsConstraint_iff.mpr (.inl hword)⟩
  | offset hword _ => exact ⟨_, _, rfl, startsConstraint_iff.mpr (.inr (.inl hword))⟩
  | order hword _ _ _ => exact ⟨_, _, rfl, startsConstraint_iff.mpr (.inr (.inr hword))⟩

theorem Grammar.ConstraintList.follows {tokens : List String} {c : Constraints}
    (h : ConstraintList tokens c) : Follows tokens := by
  cases h with
  | none => simp [Follows]
  | more hc _ _ =>
      obtain ⟨token, rest, rfl, htoken⟩ := hc.startsConstraint
      simpa [Follows] using htoken

theorem Grammar.ConstraintList.eq_empty_of_nil {c : Constraints}
    (h : ConstraintList [] c) :
    c = {} := by
  generalize htokens : ([] : List String) = tokens at h
  cases h with
  | none => rfl
  | more hone _ _ =>
      obtain ⟨token, rest, rfl, -⟩ := hone.startsConstraint
      cases htokens

theorem Grammar.ConstraintList.cases_cons {token : String}
    {tokens : List String} {c : Constraints}
    (h : ConstraintList (token :: tokens) c) :
    ∃ first rest one others,
      token :: tokens = first ++ rest ∧ Constraint first one ∧
      ConstraintList rest others ∧ one.Apart others ∧ c = one.merge others := by
  generalize htokens : token :: tokens = all at h
  cases h with
  | none => cases htokens
  | more hone hothers happart => exact ⟨_, _, _, _, rfl, hone, hothers, happart, rfl⟩

theorem constraints_cons (table : Option String) (found : Constraints)
    (token : String) (tokens : List String) :
    constraints table found (token :: tokens)
      = (constraint table token found >>= constraints table) tokens := by
  show _ = Clause.bind _ _ _
  rw [constraints, Clause.bind]
  rcases constraint table token found tokens with ⟨value, errors, rest⟩
  cases value with
  | none => rfl
  | some updated => rfl

/-- The constraints are read to the end of the query. -/
theorem reads_constraints_iff {table : String} : ∀ {tokens rest : List String}
    {found c : Constraints},
    (constraints (some table) found).Reads tokens c rest ↔
      rest = [] ∧ ∃ own, ConstraintList tokens own ∧ own.Apart found ∧
        (∀ ref ∈ own.refs, ref.table = table) ∧ c = own.merge found
  | [], rest, found, c => by
      rw [Reads, constraints]
      constructor
      · intro h
        cases h
        exact ⟨rfl, {}, .none, ⟨.inl rfl, .inl rfl, .inl rfl⟩, by simp [Constraints.refs],
          by simp [Constraints.merge]⟩
      · rintro ⟨rfl, own, hown, -, -, rfl⟩
        obtain rfl := hown.eq_empty_of_nil
        simp [Clause.pure, Constraints.merge]
  | token :: tokens, rest, found, c => by
      have hstep : (constraints (some table) found).Reads (token :: tokens) c rest ↔
          ∃ updated mid, (constraint (some table) token found).Reads tokens updated mid ∧
            (constraints (some table) updated).Reads mid c rest := by
        rw [Reads, constraints_cons]
        exact reads_bind_iff
      rw [hstep]
      constructor
      · rintro ⟨updated, mid, hfirst, hothers⟩
        have hmid : mid.length ≤ tokens.length := by
          have := constraint_rest_le (some table) token found tokens
          rwa [show constraint (some table) token found tokens = _ from hfirst] at this
        obtain ⟨rfl, others, hlist, hnew, htables, rfl⟩ :=
          reads_constraints_iff.mp hothers
        obtain ⟨front, one, heq, hone, hfound, htable, rfl⟩ :=
          (reads_constraint_iff hlist.follows).mp hfirst
        -- The others are apart from this one and from those found before it.
        obtain ⟨happart, hothersFound⟩ := Constraints.apart_merge_iff.mp hnew
        refine ⟨rfl, one.merge others, heq ▸ .more hone hlist happart.symm, ?_, ?_, ?_⟩
        · exact (Constraints.apart_merge_iff.mpr ⟨hfound.symm, hothersFound.symm⟩).symm
        · intro ref href
          rcases (Constraints.mem_refs_merge happart.symm).mp href with href | href
          · exact htable ref href
          · exact htables ref href
        · rw [← Constraints.merge_assoc, Constraints.merge_comm happart]
      · rintro ⟨rfl, own, hown, hfound, htables, rfl⟩
        obtain ⟨first, mid, one, others, heq, hone, hlist, happart, rfl⟩ :=
          hown.cases_cons
        have hmid : mid.length ≤ tokens.length := by
          obtain ⟨token', first', rfl, -⟩ := hone.startsConstraint
          have := congrArg List.length heq
          simp at this
          omega
        obtain ⟨hone', hothers'⟩ := Constraints.apart_merge_iff.mp hfound.symm
        refine ⟨one.merge found, mid, (reads_constraint_iff hlist.follows).mpr
          ⟨first, one, heq, hone, hone'.symm, fun ref href => htables ref
            ((Constraints.mem_refs_merge happart).mpr (.inl href)), rfl⟩, ?_⟩
        refine reads_constraints_iff.mpr ⟨rfl, others, hlist,
          Constraints.apart_merge_iff.mpr ⟨happart.symm, hothers'.symm⟩, fun ref href =>
            htables ref ((Constraints.mem_refs_merge happart).mpr (.inr href)), ?_⟩
        rw [← Constraints.merge_assoc, Constraints.merge_comm happart]
termination_by tokens _ _ _ => tokens.length

end CsvQuery
