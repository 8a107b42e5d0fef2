/-
What the readers of single tokens accept.

One equivalence for each reader, between the value it gives and the relation
of the grammar.  The readers work on lists of characters and the grammar on
strings, so the lemmas about lists come first.
-/
import CsvQuery.Proofs.Query.Grammar

namespace CsvQuery

open Grammar

@[simp] theorem Grammar.toList_inQuotes (text : String) :
    (inQuotes text).toList
      = Token.quoteMark :: (text.toList ++ [Token.quoteMark]) := by
  simp [inQuotes, Token.quoteMark]

namespace Token

/-! ## Quotes and dots -/

theorem unquote?_eq_some_iff {cs inner : List Char} :
    unquote? cs = some inner ↔ cs = quoteMark :: (inner ++ [quoteMark]) := by
  cases cs with
  | nil => simp [unquote?]
  | cons q cs =>
      rw [unquote?]
      constructor
      · intro h
        split at h
        · next hq =>
            obtain ⟨rfl, hlast⟩ := by simpa using hq
            obtain ⟨front, rfl⟩ := List.getLast?_eq_some_iff.mp hlast
            cases h
            simp
        · cases h
      · intro h
        obtain ⟨rfl, rfl⟩ := List.cons.inj h
        simp

theorem unquote?_toList_iff {token text : String} :
    unquote? token.toList = some text.toList ↔ token = inQuotes text := by
  rw [unquote?_eq_some_iff, ← toList_inQuotes, String.toList_inj]

theorem unquote?_eq_none_iff {token : String} :
    unquote? token.toList = none ↔ ∀ inner, token ≠ inQuotes inner := by
  constructor
  · rintro h inner rfl
    rw [unquote?_toList_iff.mpr rfl] at h
    cases h
  · intro h
    cases hu : unquote? token.toList with
    | none => rfl
    | some inner =>
        refine absurd (unquote?_toList_iff.mp ?_) (h (String.ofList inner))
        simpa using hu

theorem dot_notMem_takeWhile (cs : List Char) :
    '.' ∉ cs.takeWhile (· != '.') := by
  intro h
  have := List.all_eq_true.mp (List.all_takeWhile (p := (· != '.'))) _ h
  simp at this

theorem takeWhile_dropWhile_dot {left : List Char} (right : List Char)
    (h : '.' ∉ left) :
    (left ++ '.' :: right).takeWhile (· != '.') = left ∧
      (left ++ '.' :: right).dropWhile (· != '.') = '.' :: right := by
  have hleft : ∀ c ∈ left, (c != '.') = true := by
    intro c hc
    simp only [bne_iff_ne, ne_eq]
    rintro rfl
    exact h hc
  rw [List.takeWhile_append_of_pos hleft, List.dropWhile_append_of_pos hleft]
  simp

theorem splitDot?_eq_some_iff {cs left right : List Char} :
    splitDot? cs = some (left, right) ↔
      cs = left ++ '.' :: right ∧ (left ≠ [] ∧ '.' ∉ left) ∧
      (right ≠ [] ∧ '.' ∉ right) := by
  unfold splitDot?
  constructor
  · intro h
    dsimp only at h
    split at h
    · cases h
    · next hparts =>
        obtain ⟨rfl, rfl⟩ := by simpa using h
        have hcs : cs.takeWhile (· != '.') ++ cs.dropWhile (· != '.') = cs :=
          List.takeWhile_append_dropWhile
        cases hdrop : cs.dropWhile (· != '.') with
        | nil => simp [hdrop] at hparts
        | cons c rest =>
            obtain rfl : c = '.' := by
              have := List.head?_dropWhile_not (· != '.') cs
              rw [hdrop] at this
              simpa using this
            rw [hdrop] at hparts hcs
            simp only [List.drop_succ_cons, List.drop_zero, Bool.or_eq_true, List.isEmpty_iff,
              List.contains_eq_mem, decide_eq_true_eq, not_or] at hparts ⊢
            exact ⟨hcs.symm, ⟨hparts.1.1, dot_notMem_takeWhile cs⟩, hparts.1.2, hparts.2⟩
  · rintro ⟨rfl, ⟨hleft, hl⟩, hright, hr⟩
    obtain ⟨htake, hdrop⟩ := takeWhile_dropWhile_dot right hl
    simp [htake, hdrop, hleft, hright, hr]

theorem columnRef_eq_ok_iff {token : String} {ref : ColumnRef} :
    columnRef token.toList = .ok ref ↔ IsRef token ref := by
  constructor
  · intro h
    unfold columnRef at h
    split at h
    · cases h
    · next inner hinner =>
        split at h
        · cases h
        · next left right hsplit =>
            cases h
            obtain ⟨rfl, ⟨hleft, hl⟩, hright, hr⟩ := splitDot?_eq_some_iff.mp hsplit
            refine ⟨?_, ⟨by simpa using hleft, by simpa using hl⟩,
              by simpa using hright, by simpa using hr⟩
            refine unquote?_toList_iff.mp ?_
            simpa [ColumnRef.text] using hinner
  · rintro ⟨rfl, ⟨htable, ht⟩, hcolumn, hc⟩
    have hsplit : splitDot? ref.text.toList = some (ref.table.toList, ref.column.toList) :=
      splitDot?_eq_some_iff.mpr
        ⟨by simp [ColumnRef.text], ⟨by simpa using htable, ht⟩, by simpa using hcolumn, hc⟩
    rw [columnRef, unquote?_toList_iff.mpr rfl]
    simp [hsplit]

/-! ## Types and operators -/

/-- What is in front of the last two colons, and what is behind them. -/
theorem eq_of_splitColonsFrom? : ∀ {reversed right column word : List Char},
    splitColonsFrom? right reversed = some (column, word) →
      reversed.reverse ++ right = column ++ ':' :: ':' :: word := by
  intro reversed right column word h
  fun_induction splitColonsFrom? right reversed with
  | case1 right left =>
      cases h
      simp
  | case2 right c left _ ih => simpa using ih h
  | case3 => cases h

/-- A word without colons is passed over. -/
theorem splitColonsFrom?_word {word : List Char} (h : ':' ∉ word)
    (right left : List Char) :
    splitColonsFrom? right (word ++ ':' :: ':' :: left)
      = some (left.reverse, word.reverse ++ right)
      := by
  induction word generalizing right with
  | nil => simp [splitColonsFrom?]
  | cons c word ih =>
      obtain ⟨hc, hword⟩ := not_or.mp (mt List.mem_cons.mpr h)
      rw [List.cons_append, splitColonsFrom?.eq_2 _ _ _ (fun _ heq _ => hc heq.symm)]
      simpa using ih hword (c :: right)

end Token

theorem ValueType.ofWord?_eq_some_iff {s : String} {t : ValueType} :
    ofWord? s = some t ↔ s = t.word := by
  constructor
  · intro h
    have := List.find?_some h
    exact (beq_iff_eq.mp this).symm
  · rintro rfl
    cases t <;> decide

theorem Comparison.ofSymbol?_eq_some_iff {s : String} {c : Comparison} :
    ofSymbol? s = some c ↔ s = c.symbol := by
  constructor
  · intro h
    have := List.find?_some h
    exact (beq_iff_eq.mp this).symm
  · rintro rfl
    cases c <;> decide

namespace Token

/-- A column with its type ends in a letter and not in a quote. -/
theorem unquote?_typed (token : String) (t : ValueType) :
    unquote? (token ++ "::" ++ t.word).toList = none := by
  rw [unquote?_eq_none_iff]
  intro inner h
  have hlast : (token ++ "::" ++ t.word).toList.getLast? = (inQuotes inner).toList.getLast? :=
    congrArg (fun s : String => s.toList.getLast?) h
  rw [toList_inQuotes, ← List.cons_append, List.getLast?_concat] at hlast
  cases t <;> simp [ValueType.word, quoteMark] at hlast

theorem splitType_typed (token : String) (t : ValueType) :
    splitType (token ++ "::" ++ t.word).toList
      = (token.toList, some t.word.toList) := by
  have hcolon : ':' ∉ t.word.toList.reverse := by cases t <;> decide
  have hreverse : (token ++ "::" ++ t.word).toList.reverse
      = t.word.toList.reverse ++ ':' :: ':' :: token.toList.reverse := by simp
  rw [splitType, unquote?_typed, hreverse, splitColonsFrom?_word hcolon]
  simp

theorem splitType_spec (token : String) (ref : ColumnRef)
    (valueType : Option ValueType) :
    columnRef (splitType token.toList).1 = .ok ref ∧
        (splitType token.toList).2 = valueType.map (fun t => t.word.toList) ↔
      IsColumn token ref valueType := by
  constructor
  · rintro ⟨href, htype⟩
    unfold splitType at href htype
    split at htype
    · next hquoted =>
        rw [if_pos hquoted] at href
        obtain rfl : valueType = none := by simpa using htype.symm
        exact .untyped (columnRef_eq_ok_iff.mp href)
    · next hquoted =>
        rw [if_neg hquoted] at href
        split at htype
        · next column word hsplit =>
            rw [hsplit] at href
            obtain ⟨t, rfl, hword⟩ := Option.map_eq_some_iff.mp htype.symm
            have htoken := eq_of_splitColonsFrom? hsplit
            obtain rfl : token = String.ofList column ++ "::" ++ t.word := by
              rw [← String.toList_inj]
              simpa [hword] using htoken
            exact .typed t (columnRef_eq_ok_iff.mp (by simpa using href))
        · next hsplit =>
            -- Neither quoted nor with colons: such a token is no reference.
            rw [hsplit] at href
            simp [columnRef, Option.not_isSome_iff_eq_none.mp hquoted] at href
  · rintro (href | @⟨token, _, t, href⟩)
    · have hquoted : (unquote? token.toList).isSome := by
        rw [href.token, unquote?_toList_iff.mpr rfl]
        rfl
      rw [splitType, if_pos hquoted]
      exact ⟨columnRef_eq_ok_iff.mpr href, rfl⟩
    · rw [splitType_typed]
      exact ⟨columnRef_eq_ok_iff.mpr href, rfl⟩

/-! ## File and table -/

theorem path?_eq_some_iff {token : String} {path : Path} :
    path? token.toList = some path ↔
      ∃ file, token = "path:" ++ file ∧ IsFile file path := by
  constructor
  · intro h
    unfold path? at h
    split at h
    · next rest htoken =>
        split at h
        · cases h
        · next hrest =>
            refine ⟨String.ofList rest, ?_, ?_⟩
            · rw [← String.toList_inj, htoken]
              simp
            · obtain rfl := Option.some.inj h
              cases hquoted : unquote? rest with
              | none =>
                  refine .bare (by simpa using hrest) (unquote?_eq_none_iff.mp ?_)
                  simpa using hquoted
              | some inner =>
                  have hfile : String.ofList rest = inQuotes (String.ofList inner) :=
                    unquote?_toList_iff.mp (by simpa using hquoted)
                  rw [hfile]
                  exact .quoted _
    · cases h
  · rintro ⟨file, rfl, hfile⟩
    have htoken : ("path:" ++ file).toList = 'p' :: 'a' :: 't' :: 'h' :: ':' :: file.toList := by
      simp
    rw [htoken, path?]
    cases hfile with
    | quoted text =>
        rw [unquote?_toList_iff.mpr rfl]
        simp
    | bare hne hquoted =>
        rw [unquote?_eq_none_iff.mpr hquoted]
        simp [hne]

theorem isReserved_eq_false_iff {token : String} :
    isReserved token = false ↔
      ∀ word ∈ reserved, ¬ Text.sameWord token word := by
  simp [isReserved]

end Token

theorem csvFault?_eq_none_iff {files : Files} {path : Path} :
    csvFault? files path = none ↔ IsCsv files path := by
  unfold csvFault? IsCsv
  cases files path with
  | error fault => simp
  | ok e =>
      cases hfile : e.isFile with
      | false => simp [hfile]
      | true => cases hext : path.extension? <;> simp [hfile]

end CsvQuery
