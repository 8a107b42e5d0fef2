/-
The tokens of a query that can be wrong on their own.

SELECT, FROM and AS, an operator, a value and a number each have a `Slot`:
one token is read there, whatever it is, and reading goes on behind it.
`slots` finds the slots in a list of tokens.  It is meant for tokens that
spell a query, and there it has every slot of the query (`perm_slots`).

`Spoils` puts wrong tokens into any of the slots.  Tokens without a slot stay,
and these are the ones by which a clause finds its end, so a part of a query and
what follows it are spoilt apart from each other (`Spoils.split`).
-/
import Mathlib.Data.List.ReduceOption
import CsvQuery.Proofs.Query.WhereClause
import CsvQuery.Proofs.Query.Constraints

namespace CsvQuery

open Grammar

/-! ## Slots -/

/-- A place where one token of a certain kind is read. -/
inductive Slot where
  | selectWord
  | fromWord
  | asWord
  | operator
  | value
  | number (bound : Bound)
deriving DecidableEq, Repr

namespace Slot

/-- The token is wrong in the slot.  A comma does not count in the place of
FROM: it would go on with the select list. -/
def Refuses : Slot → String → Prop
  | .selectWord, token => ¬ Text.sameWord token "select"
  | .fromWord, token => ¬ Text.sameWord token "from" ∧ token ≠ ","
  | .asWord, token => ¬ Text.sameWord token "as"
  | .operator, token => ∀ c : Comparison, token ≠ c.symbol
  | .value, token => ∀ text, token ≠ inQuotes text
  | .number _, token => Integer.readCount? token = none

instance decidableRefuses :
    (slot : Slot) → (token : String) → Decidable (slot.Refuses token)
  | .selectWord, token => inferInstanceAs (Decidable (¬ Text.sameWord token "select"))
  | .fromWord, token => inferInstanceAs (Decidable (¬ Text.sameWord token "from" ∧ token ≠ ","))
  | .asWord, token => inferInstanceAs (Decidable (¬ Text.sameWord token "as"))
  | .operator, token =>
    decidable_of_iff (∀ c ∈ Comparison.all, token ≠ c.symbol)
      ⟨fun h c => h c (by cases c <;> decide), fun h c _ => h c⟩
  | .value, token =>
    decidable_of_iff (Token.unquote? token.toList = none) Token.unquote?_eq_none_iff
  | .number _, token => inferInstanceAs (Decidable (Integer.readCount? token = none))

/-- The error of a wrong token. -/
def fault : Slot → String → GrammarError
  | .selectWord, token => .invalidSelect token
  | .fromWord, token => .invalidFrom token
  | .asWord, token => .invalidAs token
  | .operator, token => .invalidComparison token
  | .value, token => .unquotedValue token
  | .number bound, token => .invalidBound (.notNumber bound token)

end Slot

/-- The number of a clause. -/
def Constraints.number? (c : Constraints) : Bound → Option Nat
  | .limit => c.limit
  | .offset => c.offset

/-- The slots of limit and offset. -/
def Constraints.slots (c : Constraints) : List Slot :=
  c.limit.toList.map (fun _ => Slot.number .limit) ++
    c.offset.toList.map fun _ => Slot.number .offset

/-- The slots of a query: those that every query has, two for each condition,
and the numbers. -/
def Query.slots (q : Query) : List Slot :=
  .selectWord :: .fromWord :: .asWord ::
    (q.conditions.flatMap (fun _ => [Slot.operator, .value]) ++ q.constraints.slots)

/-! ## Slots among tokens -/

/-- The clause that takes a number. -/
def Token.bound? (word : String) : Option Bound :=
  if Text.sameWord word "limit" then some .limit
  else if Text.sameWord word "offset" then some .offset
  else none

/-- Tokens without a slot. -/
def fixedSlots (tokens : List String) : List (Option Slot) :=
  tokens.map fun _ => none

/-- The numbers of limit and offset. -/
def constraintSlots : List String → List (Option Slot)
  | [] => []
  | [_] => [none]
  | word :: token :: rest =>
    match Token.bound? word with
    | some bound => none :: some (.number bound) :: constraintSlots rest
    | none => none :: constraintSlots (token :: rest)

/-- The operators and values of conditions, and the numbers behind them. -/
def conditionSlots : List String → List (Option Slot)
  | [_, _, _] => [none, some .operator, some .value]
  | _ :: _ :: _ :: word :: rest =>
    none :: some .operator :: some .value ::
      if Token.startsConstraint word then constraintSlots (word :: rest)
      else none :: conditionSlots rest
  | tokens => fixedSlots tokens

/-- The slots behind the name of the table. -/
def clauseSlots : List String → List (Option Slot)
  | [] => []
  | word :: rest =>
    if Text.sameWord word "where" then none :: conditionSlots rest
    else constraintSlots (word :: rest)

/-- The slots from FROM on. -/
def sourceSlots : List String → List (Option Slot)
  | _ :: _ :: _ :: _ :: rest =>
    some .fromWord :: none :: some .asWord :: none :: clauseSlots rest
  | tokens => fixedSlots tokens

/-- The slot of each token of a query, for the tokens that have one. -/
def slots : List String → List (Option Slot)
  | [] => []
  | _ :: rest =>
    let isItem := fun token => !Text.sameWord token "from"
    some .selectWord :: fixedSlots (rest.takeWhile isItem) ++ sourceSlots (rest.dropWhile isItem)

/-! ## Every token is counted -/

@[simp] theorem length_fixedSlots (tokens : List String) :
    (fixedSlots tokens).length = tokens.length :=
  List.length_map _

@[simp] theorem length_constraintSlots (tokens : List String) :
    (constraintSlots tokens).length = tokens.length := by
  fun_induction constraintSlots tokens with
  | case1 => rfl
  | case2 => rfl
  | case3 word token rest bound _ ih => simp [ih]
  | case4 word token rest _ ih => simp [ih]

@[simp] theorem length_conditionSlots (tokens : List String) :
    (conditionSlots tokens).length = tokens.length := by
  fun_induction conditionSlots tokens with
  | case1 => rfl
  | case2 column operator value word rest ih =>
      simp only [List.length_cons]
      split <;> simp [ih]
  | case3 tokens => simp

@[simp] theorem length_clauseSlots (tokens : List String) :
    (clauseSlots tokens).length = tokens.length := by
  fun_cases clauseSlots tokens <;> simp

@[simp] theorem length_sourceSlots (tokens : List String) :
    (sourceSlots tokens).length = tokens.length := by
  fun_cases sourceSlots tokens <;> simp

theorem length_slots (tokens : List String) :
    (slots tokens).length = tokens.length := by
  fun_cases slots tokens with
  | case1 => rfl
  | case2 word rest isItem =>
      have hrest : rest.takeWhile isItem ++ rest.dropWhile isItem = rest :=
        List.takeWhile_append_dropWhile
      have hlength := congrArg List.length hrest
      rw [List.length_append] at hlength
      simp [hlength]

/-! ## The slots of a part -/

namespace Token

theorem bound?_eq_some_iff {word : String} {bound : Bound} :
    bound? word = some bound ↔ Text.sameWord word bound.word := by
  unfold bound?
  constructor
  · intro h
    split at h
    · next hlimit =>
        cases h
        exact (sameWord_congr_right (by decide)).mp hlimit
    · split at h
      · next hoffset =>
          cases h
          exact (sameWord_congr_right (by decide)).mp hoffset
      · cases h
  · intro h
    cases bound with
    | limit => rw [if_pos ((sameWord_of_sameWord h).mpr (by decide))]
    | offset =>
        rw [if_neg (mt (sameWord_of_sameWord h).mp (by decide)),
          if_pos ((sameWord_of_sameWord h).mpr (by decide))]

theorem bound?_eq_none {token : String}
    (h : ∀ bound : Bound, ¬ Text.sameWord token bound.word) :
    bound? token = none := by
  cases hbound : bound? token with
  | none => rfl
  | some bound => exact absurd (bound?_eq_some_iff.mp hbound) (h bound)

theorem bound?_eq_none_of_sameWord {token word : String}
    (h : Text.sameWord token word)
    (hword : bound? word = none) : bound? token = none := by
  refine bound?_eq_none fun bound hbound => ?_
  rw [bound?_eq_some_iff.mpr ((sameWord_of_sameWord h).mp hbound)] at hword
  cases hword

theorem bound?_eq_none_of_quote {token : String}
    (h : token.toList.head? = some quoteMark) :
    bound? token = none := by
  refine bound?_eq_none fun bound => not_sameWord_of_quote h ?_
  cases bound <;> decide

end Token

theorem Grammar.Refs.bound? {tokens : List String} {refs : List ColumnRef}
    (h : Refs tokens refs) : ∀ token ∈ tokens, Token.bound? token = none := by
  induction h with
  | one href => simpa using Token.bound?_eq_none_of_quote href.head?
  | more href _ ih =>
      simp only [List.forall_mem_cons]
      exact ⟨Token.bound?_eq_none_of_quote href.head?, by decide, ih⟩

theorem Grammar.SortDirection.bound? {tokens : List String}
    {direction : Direction} (h : SortDirection tokens direction) :
    ∀ token ∈ tokens, Token.bound? token = none := by
  cases h with
  | absent => simp
  | ascending hword => simpa using Token.bound?_eq_none_of_sameWord hword (by decide)
  | descending hword => simpa using Token.bound?_eq_none_of_sameWord hword (by decide)

theorem constraintSlots_cons {word : String} (h : Token.bound? word = none)
    (rest : List String) :
    constraintSlots (word :: rest) = none :: constraintSlots rest := by
  cases rest with
  | nil => rfl
  | cons token rest => rw [constraintSlots, h]

theorem constraintSlots_head (word : String) (rest : List String) :
    ∃ more, constraintSlots (word :: rest) = none :: more := by
  cases rest with
  | nil => exact ⟨[], rfl⟩
  | cons token rest =>
      rw [constraintSlots]
      split <;> exact ⟨_, rfl⟩

theorem constraintSlots_number {word number : String} {bound : Bound}
    (h : Text.sameWord word bound.word) (rest : List String) :
    constraintSlots (word :: number :: rest)
      = none :: some (.number bound) :: constraintSlots rest := by
  rw [constraintSlots, Token.bound?_eq_some_iff.mpr h]

theorem constraintSlots_fixed {tokens : List String} (rest : List String)
    (h : ∀ token ∈ tokens, Token.bound? token = none) :
    constraintSlots (tokens ++ rest)
      = fixedSlots tokens ++ constraintSlots rest := by
  induction tokens with
  | nil => rfl
  | cons token tokens ih =>
      obtain ⟨htoken, htokens⟩ := List.forall_mem_cons.mp h
      rw [List.cons_append, constraintSlots_cons htoken, ih htokens]
      rfl

theorem constraintSlots_eq_fixed {tokens : List String}
    (h : ∀ token ∈ tokens, Token.bound? token = none) :
    constraintSlots tokens = fixedSlots tokens := by
  simpa [constraintSlots] using constraintSlots_fixed [] h

/-- A constraint is a word and its number, or a sort order, which has no
slot. -/
theorem Grammar.Constraint.number_or_fixed {tokens : List String}
    {c : Constraints} (h : Constraint tokens c) :
    (∃ (bound : Bound) (word number : String), tokens = [word, number] ∧
        Text.sameWord word bound.word ∧ c.slots = [.number bound] ∧
        (c.number? bound).isSome) ∨
      c.slots = [] ∧ ∀ token ∈ tokens, Token.bound? token = none := by
  cases h with
  | limit hword _ =>
      exact .inl ⟨.limit, _, _, rfl, (sameWord_congr_right (by decide)).mp hword, rfl, rfl⟩
  | offset hword _ =>
      exact .inl ⟨.offset, _, _, rfl, (sameWord_congr_right (by decide)).mp hword, rfl, rfl⟩
  | order hword hby hkeys hway =>
      refine .inr ⟨rfl, ?_⟩
      simp only [List.forall_mem_append, List.forall_mem_cons]
      exact ⟨⟨Token.bound?_eq_none_of_sameWord hword (by decide),
        Token.bound?_eq_none_of_sameWord hby (by decide), hkeys.bound?⟩, hway.bound?⟩

/-- The next constraint is apart from this one. -/
theorem Grammar.Constraint.slots_append {tokens : List String}
    {c : Constraints} (h : Constraint tokens c) (rest : List String) :
    constraintSlots (tokens ++ rest)
      = constraintSlots tokens ++ constraintSlots rest := by
  rcases h.number_or_fixed with ⟨bound, word, number, rfl, hword, -, -⟩ | ⟨-, hfixed⟩
  · rw [List.cons_append, List.cons_append, constraintSlots_number hword,
      constraintSlots_number hword]
    rfl
  · rw [constraintSlots_fixed rest hfixed, constraintSlots_eq_fixed hfixed]

/-- A constraint follows the conditions, if anything does. -/
theorem Grammar.Conditions.slots_append {tokens rest : List String}
    {cs : List Condition} (h : Conditions tokens cs) (hrest : Follows rest) :
    conditionSlots (tokens ++ rest)
      = conditionSlots tokens ++ constraintSlots rest := by
  induction h with
  | last _ _ =>
      cases rest with
      | nil => rfl
      | cons word rest =>
          have hword := hrest word rfl
          simp [conditionSlots, hword]
  | more _ _ hword _ ih =>
      have hconnective := not_startsConstraint_of_connective hword
      simp only [List.cons_append, conditionSlots]
      rw [if_neg hconnective, if_neg hconnective, ih]
      rfl

theorem Grammar.Where.slots_append {wheres rest : List String}
    {cs : List Condition} (h : Where wheres cs) (hrest : Follows rest) :
    clauseSlots (wheres ++ rest)
      = clauseSlots wheres ++ constraintSlots rest := by
  cases h with
  | absent =>
      cases rest with
      | nil => rfl
      | cons word rest =>
          simp [clauseSlots,
            hrest.not_sameWord (show ¬ Token.startsConstraint "where" by decide)]
  | present hword hconditions =>
      simp only [List.cons_append, clauseSlots, if_pos hword,
        hconditions.slots_append hrest]

theorem Grammar.SelectList.not_from {tokens : List String}
    {items : List SelectItem} (h : SelectList tokens items) :
    ∀ token ∈ tokens, ¬ Text.sameWord token "from" := by
  cases h with
  | star =>
      simp only [List.mem_singleton, forall_eq]
      decide
  | columns hrefs hnodup =>
      clear hnodup
      induction hrefs with
      | one href => simpa using not_sameWord_of_quote href.head? (by decide)
      | more href hrefs ih =>
          simp only [List.forall_mem_cons]
          exact ⟨not_sameWord_of_quote href.head? (by decide), by decide, ih⟩

/-- The slots of a query, part by part. -/
theorem slots_parts {selectWord fromWord path asWord table : String}
    {list wheres tail : List String} {select : List SelectItem}
    {cs : List Condition} (hlist : SelectList list select)
    (hfrom : Text.sameWord fromWord "from") (hwhere : Where wheres cs)
    (htail : Follows tail) :
    slots (selectWord :: list ++ [fromWord, path, asWord, table]
      ++ wheres ++ tail)
      = some .selectWord :: fixedSlots list ++
          some .fromWord :: none :: some .asWord :: none ::
            (clauseSlots wheres ++ constraintSlots tail) := by
  have hitems : ∀ token ∈ list, (!Text.sameWord token "from") = true := by
    simpa using hlist.not_from
  simp only [slots, List.cons_append, List.append_assoc, List.nil_append]
  rw [List.takeWhile_append_of_pos hitems, List.dropWhile_append_of_pos hitems]
  simp [hfrom, sourceSlots, hwhere.slots_append htail]

/-! ## Every slot of the query -/

theorem reduceOption_fixedSlots (tokens : List String) :
    (fixedSlots tokens).reduceOption = [] := by
  simp [fixedSlots]

theorem Grammar.Conditions.reduceOption_slots {tokens : List String}
    {cs : List Condition} (h : Conditions tokens cs) :
    (conditionSlots tokens).reduceOption
      = cs.flatMap fun _ => [Slot.operator, .value] := by
  induction h with
  | last _ _ => rfl
  | more _ _ hword _ ih =>
      rw [conditionSlots, if_neg (not_startsConstraint_of_connective hword)]
      simpa using ih

theorem Grammar.Where.reduceOption_slots {tokens : List String}
    {cs : List Condition} (h : Where tokens cs) :
    (clauseSlots tokens).reduceOption
      = cs.flatMap fun _ => [Slot.operator, .value] := by
  cases h with
  | absent => rfl
  | present hword hconditions =>
      rw [clauseSlots, if_pos hword]
      simpa using hconditions.reduceOption_slots

theorem Grammar.Constraint.reduceOption_slots {tokens : List String}
    {c : Constraints} (h : Constraint tokens c) :
    (constraintSlots tokens).reduceOption = c.slots := by
  rcases h.number_or_fixed with ⟨bound, word, number, rfl, hword, hslots, -⟩ | ⟨hslots, hfixed⟩
  · rw [constraintSlots_number hword, hslots]
    rfl
  · rw [constraintSlots_eq_fixed hfixed, reduceOption_fixedSlots, hslots]

theorem Constraints.slots_merge {a b : Constraints} (h : a.Apart b) :
    (a.merge b).slots.Perm (a.slots ++ b.slots) := by
  have hor : ∀ {x y : Option Nat}, x = none ∨ y = none →
      (x.or y).toList = x.toList ++ y.toList := by
    rintro x y (rfl | rfl) <;> simp
  simp only [slots, merge, hor h.limit, hor h.offset, List.map_append,
    List.append_assoc]
  exact (List.perm_append_comm_assoc _ _ _).append_left _

theorem Grammar.ConstraintList.perm_slots {tokens : List String}
    {c : Constraints} (h : ConstraintList tokens c) :
    (constraintSlots tokens).reduceOption.Perm c.slots := by
  induction h with
  | none => exact .refl _
  | more hone _ happart ih =>
      rw [hone.slots_append, List.reduceOption_append, hone.reduceOption_slots]
      exact (ih.append_left _).trans (Constraints.slots_merge happart).symm

theorem perm_slots {files : Files} {tokens : List String} {q : Query}
    (h : Spells files tokens q) : (slots tokens).reduceOption.Perm q.slots := by
  obtain ⟨⟨-, hlist, hfrom, -, -, -, -⟩, hwhere, htail⟩ := h
  rw [slots_parts hlist hfrom hwhere htail.follows]
  simp only [Query.slots, List.reduceOption_append, List.reduceOption_cons_of_some,
    List.reduceOption_cons_of_none, reduceOption_fixedSlots, hwhere.reduceOption_slots,
    List.nil_append, List.cons_append]
  exact (((htail.perm_slots.append_left _).cons _).cons _).cons _

/-! ## Wrong tokens in slots -/

/-- A token in a slot, which stays or is replaced by a wrong one. -/
inductive Slip (slot : Slot)
    (token : String) : String → List GrammarError → Prop
  | kept : Slip slot token token []
  | replaced {wrong : String} : slot.Refuses wrong →
      Slip slot token wrong [slot.fault wrong]

/-- Tokens with wrong ones in any of their slots, and the errors of these in
their order. -/
inductive Spoils :
    List (Option Slot) → List String → List String → List GrammarError → Prop
  | nil : Spoils [] [] [] []
  | fixed {token : String} {slots : List (Option Slot)}
      {tokens spoilt : List String}
      {errors : List GrammarError} :
      Spoils slots tokens spoilt errors →
        Spoils (none :: slots) (token :: tokens) (token :: spoilt) errors
  | slot {slot : Slot} {token found : String} {slots : List (Option Slot)}
      {tokens spoilt : List String} {own errors : List GrammarError} :
      Slip slot token found own → Spoils slots tokens spoilt errors →
        Spoils (some slot :: slots) (token :: tokens) (found :: spoilt)
          (own ++ errors)

namespace Spoils

/-- Without an error no token is another one. -/
theorem eq_of_nil {slots : List (Option Slot)} {tokens spoilt : List String}
    {errors : List GrammarError} (h : Spoils slots tokens spoilt errors)
    (hnil : errors = []) :
    spoilt = tokens := by
  induction h with
  | nil => rfl
  | fixed _ ih => rw [ih hnil]
  | slot hslip _ ih =>
      obtain ⟨rfl, herrors⟩ := List.append_eq_nil_iff.mp hnil
      cases hslip
      rw [ih herrors]

/-- Two parts are spoilt each on its own. -/
theorem split {front back : List (Option Slot)}
    {tokens others spoilt : List String} {errors : List GrammarError}
    (hlength : front.length = tokens.length)
    (h : Spoils (front ++ back) (tokens ++ others) spoilt errors) :
    ∃ first rest own further, spoilt = first ++ rest ∧ errors = own ++ further ∧
      Spoils front tokens first own ∧ Spoils back others rest further := by
  induction front generalizing tokens spoilt errors with
  | nil =>
      obtain rfl : tokens = [] := List.eq_nil_of_length_eq_zero hlength.symm
      exact ⟨[], spoilt, [], errors, rfl, rfl, .nil, h⟩
  | cons slot front ih =>
      cases tokens with
      | nil => cases hlength
      | cons token tokens =>
          have htail : front.length = tokens.length := Nat.succ.inj hlength
          cases h with
          | fixed h =>
              obtain ⟨first, rest, own, further, rfl, rfl, hfirst, hrest⟩ := ih htail h
              exact ⟨token :: first, rest, own, further, rfl, rfl, .fixed hfirst, hrest⟩
          | slot hslip h =>
              obtain ⟨first, rest, own, further, rfl, rfl, hfirst, hrest⟩ := ih htail h
              exact ⟨_ :: first, rest, _ ++ own, further, rfl, by simp, .slot hslip hfirst, hrest⟩

/-- Tokens without slots stay as they are. -/
theorem of_fixed {tokens spoilt : List String} {errors : List GrammarError}
    (h : Spoils (fixedSlots tokens) tokens spoilt errors) :
    spoilt = tokens ∧ errors = [] := by
  induction tokens generalizing spoilt with
  | nil =>
      cases h
      exact ⟨rfl, rfl⟩
  | cons token tokens ih =>
      cases h with
      | fixed h =>
          obtain ⟨rfl, herrors⟩ := ih h
          exact ⟨rfl, herrors⟩

/-- The word of a constraint stays. -/
theorem constraint {word : String} {tokens spoilt : List String}
    {errors : List GrammarError}
    (h : Spoils (constraintSlots (word :: tokens))
      (word :: tokens) spoilt errors) :
    ∃ rest, spoilt = word :: rest := by
  obtain ⟨more, hslots⟩ := constraintSlots_head word tokens
  rw [hslots] at h
  cases h
  exact ⟨_, rfl⟩

theorem follows {tokens spoilt : List String} {errors : List GrammarError}
    (h : Spoils (constraintSlots tokens) tokens spoilt errors)
    (htokens : Follows tokens) :
    Follows spoilt := by
  cases tokens with
  | nil =>
      cases h
      exact htokens
  | cons word tokens =>
      obtain ⟨rest, rfl⟩ := h.constraint
      exact htokens

end Spoils

end CsvQuery
