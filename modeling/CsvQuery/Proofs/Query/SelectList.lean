/-
Reading what a query selects, and from where.

The select list ends where no comma follows; then come the file and the name
of the table, one token each.
-/
import CsvQuery.Proofs.Query.Reading
import CsvQuery.Proofs.Query.RepeatedNames

namespace CsvQuery

open Grammar Clause

/-! ## Select list -/

theorem selectEntry_eq_iff {token : String} {o : Option ColumnRef} :
    selectEntry token = (o, []) ↔ ∃ ref, o = some ref ∧ IsRef token ref := by
  unfold selectEntry
  split
  · next hstar =>
      subst hstar
      constructor
      · intro h
        simp at h
      · rintro ⟨ref, -, href⟩
        exact absurd href.head? (by decide)
  · cases href : Token.columnRef token.toList with
    | error fault =>
        constructor
        · intro h
          simp at h
        · rintro ⟨ref, -, h⟩
          rw [Token.columnRef_eq_ok_iff.mpr h] at href
          cases href
    | ok ref =>
        constructor
        · rintro h
          cases h
          exact ⟨ref, rfl, Token.columnRef_eq_ok_iff.mp href⟩
        · rintro ⟨ref', rfl, h⟩
          rw [Token.columnRef_eq_ok_iff.mpr h] at href
          cases href
          rfl

/-- The tokens start with column references, and `rest` is what is behind
the last one. -/
def RefsThen (tokens : List String) (refs : List ColumnRef)
    (rest : List String) : Prop :=
  ∃ front, tokens = front ++ rest ∧ Refs front refs ∧ NoComma rest

theorem refsThen_cons_iff {token : String} {tokens rest : List String}
    {refs : List ColumnRef} :
    RefsThen (token :: tokens) refs rest ↔ ∃ ref, IsRef token ref ∧
      (refs = [ref] ∧ tokens = rest ∧ NoComma rest ∨
        ∃ tail others, tokens = "," :: tail ∧ refs = ref :: others ∧
          RefsThen tail others rest) := by
  constructor
  · rintro ⟨front, htokens, hrefs, hrest⟩
    cases hrefs with
    | one href =>
        obtain ⟨rfl, rfl⟩ := List.cons.inj htokens
        exact ⟨_, href, .inl ⟨rfl, rfl, hrest⟩⟩
    | more href hrefs =>
        obtain ⟨rfl, rfl⟩ := List.cons.inj htokens
        exact ⟨_, href, .inr ⟨_, _, rfl, rfl, _, rfl, hrefs, hrest⟩⟩
  · rintro ⟨ref, href, ⟨rfl, rfl, hrest⟩ | ⟨_, others, rfl, rfl, front, rfl, hrefs, hrest⟩⟩
    · exact ⟨[token], rfl, .one href, hrest⟩
    · exact ⟨token :: "," :: front, rfl, .more href hrefs, hrest⟩

@[simp] theorem not_refsThen_nil {refs : List ColumnRef} {rest : List String} :
    ¬ RefsThen [] refs rest := by
  rintro ⟨front, htokens, hrefs, -⟩
  cases hrefs <;> cases htokens

theorem selectEntry_of_isRef {token : String} {ref : ColumnRef}
    (h : IsRef token ref) :
    selectEntry token = (some ref, []) :=
  selectEntry_eq_iff.mpr ⟨ref, rfl, h⟩

/-- The entry in front of the end of the list. -/
theorem lastEntry_iff {token : String} {o : Option ColumnRef}
    {errors : List GrammarError} {tail rest : List String}
    {refs : List ColumnRef} (hentry : selectEntry token = (o, errors))
    (htail : NoComma tail) :
    (⟨some o.toList, errors, tail⟩ : Walk (List ColumnRef))
      = ⟨some refs, [], rest⟩ ↔
      RefsThen (token :: tail) refs rest := by
  rw [refsThen_cons_iff]
  constructor
  · intro h
    simp only [Walk.mk.injEq, Option.some.injEq] at h
    obtain ⟨rfl, rfl, rfl⟩ := h
    obtain ⟨ref, rfl, href⟩ := selectEntry_eq_iff.mp hentry
    exact ⟨ref, href, .inl ⟨rfl, rfl, htail⟩⟩
  · rintro ⟨ref, href, ⟨rfl, rfl, -⟩ | ⟨_, _, rfl, -⟩⟩
    · rw [selectEntry_of_isRef href] at hentry
      cases hentry
      rfl
    · exact absurd rfl htail

theorem reads_selectEntries_iff : ∀ {tokens : List String} {token : String}
    {refs : List ColumnRef} {rest : List String},
    (selectEntries token).Reads tokens refs rest ↔
      RefsThen (token :: tokens) refs rest
  | [], token, refs, rest => by
      rw [Reads, selectEntries]
      rcases hentry : selectEntry token with ⟨o, errors⟩
      exact lastEntry_iff hentry (by simp [NoComma])
  | comma :: tail, token, refs, rest => by
      rw [Reads, selectEntries.eq_def]
      rcases hentry : selectEntry token with ⟨o, errors⟩
      dsimp only
      by_cases hcomma : comma = ","
      · subst hcomma
        rw [refsThen_cons_iff, if_pos rfl]
        cases tail with
        | nil =>
            -- A comma with nothing behind it is an error.
            constructor
            · intro h
              simp at h
            · rintro ⟨ref, href, ⟨-, rfl, hno⟩ | ⟨_, _, heq, -, hothers⟩⟩
              · exact absurd rfl hno
              · cases heq
                exact absurd hothers not_refsThen_nil
        | cons next tail =>
            dsimp only
            rw [walk_map_eq_iff]
            constructor
            · rintro ⟨rfl, others, hothers, rfl⟩
              obtain ⟨ref, rfl, href⟩ := selectEntry_eq_iff.mp hentry
              exact ⟨ref, href, .inr ⟨_, others, rfl, rfl, reads_selectEntries_iff.mp hothers⟩⟩
            · rintro ⟨ref, href, ⟨-, rfl, hno⟩ | ⟨_, others, heq, rfl, hothers⟩⟩
              · exact absurd rfl hno
              · cases heq
                rw [selectEntry_of_isRef href] at hentry
                cases hentry
                exact ⟨rfl, others, reads_selectEntries_iff.mpr hothers, rfl⟩
      · rw [if_neg hcomma]
        exact lastEntry_iff hentry (by simpa [NoComma] using hcomma)

theorem reads_selectColumns_iff {token : String} {tokens rest : List String}
    {items : List SelectItem} :
    (selectColumns token).Reads tokens items rest ↔
      ∃ refs, RefsThen (token :: tokens) refs rest ∧
        (refs.map ColumnRef.column).Nodup ∧
        items = refs.map .column := by
  unfold selectColumns
  simp only [reads_bind_iff, reads_selectEntries_iff, reads_report_iff, reads_pure_iff,
    List.map_eq_nil_iff, repeatedNames_eq_nil_iff]
  constructor
  · rintro ⟨refs, mid, hrefs, -, mid', ⟨hnodup, rfl⟩, rfl, rfl⟩
    exact ⟨refs, hrefs, hnodup, rfl⟩
  · rintro ⟨refs, hrefs, hnodup, rfl⟩
    exact ⟨refs, rest, hrefs, (), rest, ⟨hnodup, rfl⟩, rfl, rfl⟩

theorem reads_afterStar_iff {tokens rest : List String}
    {items : List SelectItem} :
    afterStar.Reads tokens items rest ↔
      items = [.all] ∧ tokens = rest ∧ NoComma rest := by
  cases tokens with
  | nil =>
      simp only [Reads, afterStar, Clause.pure, Walk.mk.injEq, Option.some.injEq,
        true_and]
      constructor
      · rintro ⟨rfl, rfl⟩
        exact ⟨rfl, rfl, by simp [NoComma]⟩
      · rintro ⟨rfl, rfl, -⟩
        exact ⟨rfl, rfl⟩
  | cons token tokens =>
      rw [Reads, afterStar]
      split
      · next hcomma =>
          subst hcomma
          constructor
          · intro h
            simp at h
          · rintro ⟨-, rfl, hno⟩
            exact absurd rfl hno
      · next hcomma =>
          simp only [Clause.pure, Walk.mk.injEq, Option.some.injEq, true_and]
          constructor
          · rintro ⟨rfl, rfl⟩
            exact ⟨rfl, rfl, by simpa [NoComma] using hcomma⟩
          · rintro ⟨rfl, rfl, -⟩
            exact ⟨rfl, rfl⟩

theorem reads_selectList_iff {tokens rest : List String}
    {items : List SelectItem} :
    selectList.Reads tokens items rest ↔
      ∃ front, tokens = front ++ rest ∧ SelectList front items ∧
        NoComma rest := by
  cases tokens with
  | nil =>
      constructor
      · intro h
        simp [Reads, selectList, stop] at h
      · rintro ⟨front, hfront, hlist, -⟩
        obtain ⟨rfl, rfl⟩ := List.nil_eq_append_iff.mp hfront
        cases hlist with
        | columns hrefs => cases hrefs
  | cons token tokens =>
      have hstep : selectList.Reads (token :: tokens) items rest ↔
          ¬ Text.sameWord token "from" ∧
            (token = "*" ∧ afterStar.Reads tokens items rest ∨
              token ≠ "*" ∧ (selectColumns token).Reads tokens items rest) := by
        rw [Reads, selectList]
        split
        · next hfrom => simp [hfrom]
        · next hfrom =>
            split
            · next hstar =>
                subst hstar
                simp [hfrom, Reads]
            · next hstar => simp [hstar, hfrom, Reads]
      rw [hstep, reads_afterStar_iff, reads_selectColumns_iff]
      constructor
      · rintro ⟨-, ⟨rfl, rfl, rfl, hno⟩ | ⟨-, refs, ⟨front, heq, hrefs, hno⟩, hnodup, rfl⟩⟩
        · exact ⟨["*"], rfl, .star, hno⟩
        · exact ⟨front, heq, .columns hrefs hnodup, hno⟩
      · rintro ⟨front, heq, hlist, hno⟩
        cases hlist with
        | star =>
            obtain ⟨rfl, rfl⟩ := List.cons.inj heq
            exact ⟨by decide, .inl ⟨rfl, rfl, rfl, hno⟩⟩
        | columns hrefs hnodup =>
            obtain ⟨ref, href, -⟩ := refsThen_cons_iff.mp ⟨front, heq, hrefs, hno⟩
            refine ⟨not_sameWord_of_quote href.head? (by decide), .inr ⟨?_, _,
              ⟨front, heq, hrefs, hno⟩, hnodup, rfl⟩⟩
            rintro rfl
            exact absurd href.head? (by decide)

/-! ## File and table -/

theorem reads_filePath_iff {files : Files} {tokens rest : List String}
    {path : Path} :
    (filePath files).Reads tokens path rest ↔
      ∃ file, tokens = ("path:" ++ file) :: rest ∧ IsFile file path ∧
        IsCsv files path := by
  unfold filePath
  rw [reads_bind_iff]
  constructor
  · rintro ⟨token, mid, hnext, h⟩
    obtain rfl := reads_next_iff.mp hnext
    cases hpath : Token.path? token.toList with
    | none =>
        simp only [hpath, reads_bind_iff, reads_report_iff] at h
        obtain ⟨-, -, ⟨habsurd, -⟩, -⟩ := h
        cases habsurd
    | some found =>
        simp only [hpath, reads_bind_iff, reads_report_iff, reads_pure_iff] at h
        obtain ⟨-, -, ⟨hfault, rfl⟩, rfl, rfl⟩ := h
        obtain ⟨file, rfl, hfile⟩ := Token.path?_eq_some_iff.mp hpath
        refine ⟨file, rfl, hfile, csvFault?_eq_none_iff.mp ?_⟩
        simpa using hfault
  · rintro ⟨file, rfl, hfile, hcsv⟩
    refine ⟨_, rest, reads_next_iff.mpr rfl, ?_⟩
    rw [Token.path?_eq_some_iff.mpr ⟨file, rfl, hfile⟩]
    refine reads_bind_iff.mpr
      ⟨(), rest, reads_report_iff.mpr ⟨?_, rfl⟩, reads_pure_iff.mpr ⟨rfl, rfl⟩⟩
    simp [csvFault?_eq_none_iff.mpr hcsv]

theorem isTable_iff {token : String} :
    IsTable token ↔ Token.isReserved token = false ∧
      (token.toList.any fun c => c == Token.quoteMark || c == '.' || c == ',')
        = false := by
  rw [Token.isReserved_eq_false_iff, List.any_eq_false]
  constructor
  · rintro ⟨hreserved, hquote, hdot, hcomma⟩
    refine ⟨hreserved, fun c hc => ?_⟩
    simp only [Bool.or_eq_true, beq_iff_eq, not_or]
    exact ⟨⟨fun h => hquote (h ▸ hc), fun h => hdot (h ▸ hc)⟩, fun h => hcomma (h ▸ hc)⟩
  · rintro ⟨hreserved, hplain⟩
    refine ⟨hreserved, fun h => ?_, fun h => ?_, fun h => ?_⟩ <;> exact hplain _ h (by decide)

theorem reads_tableName_iff {tokens rest : List String} {o : Option String} :
    tableName.Reads tokens o rest ↔
      ∃ table, o = some table ∧ tokens = table :: rest ∧ IsTable table := by
  cases tokens with
  | nil => simp [Reads, tableName, stop]
  | cons token tokens =>
      rw [Reads, tableName]
      constructor
      · intro h
        split at h
        · simp at h
        · next hreserved =>
            split at h
            · simp at h
            · next hplain =>
                simp only [Walk.mk.injEq, Option.some.injEq, true_and] at h
                obtain ⟨rfl, rfl⟩ := h
                exact ⟨token, rfl, rfl, isTable_iff.mpr ⟨by simpa using hreserved,
                  by simpa using hplain⟩⟩
      · rintro ⟨table, rfl, heq, htable⟩
        obtain ⟨rfl, rfl⟩ := List.cons.inj heq
        obtain ⟨hreserved, hplain⟩ := isTable_iff.mp htable
        rw [hreserved, hplain]
        rfl

theorem selectMismatches_eq_nil_iff {table : String} {items : List SelectItem} :
    selectMismatches (some table) items = [] ↔
      ∀ ref ∈ items.filterMap SelectItem.ref?, ref.table = table := by
  unfold selectMismatches
  rw [List.flatMap_eq_nil_iff]
  constructor
  · intro h ref href
    obtain ⟨item, hitem, hsome⟩ := List.mem_filterMap.mp href
    cases item with
    | all => cases hsome
    | column found =>
        cases hsome
        exact mismatch_eq_nil_iff.mp (h _ hitem)
  · intro h item hitem
    cases item with
    | all => rfl
    | column ref =>
        exact mismatch_eq_nil_iff.mpr (h ref (List.mem_filterMap.mpr ⟨_, hitem, rfl⟩))

end CsvQuery
