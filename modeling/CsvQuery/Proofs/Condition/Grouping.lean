/-
The chain and the groups of a where clause hold its conditions and nothing
else.

The chain has a predicate at every even place and a connective at every odd
one, each from the condition that stands there (`getElem?_links_even`,
`getElem?_links_odd`).  The groups are the one way to cut the conditions behind
every OR that has a condition behind it (`cutAtOrs_iff`).  How many groups there
are follows from that cut alone and needs neither of the two scans that make
them (`CutAtOrs.length_eq`).
-/
import CsvQuery.Proofs.Condition.Evaluation
import Mathlib.Data.List.SplitBy

namespace CsvQuery

/-! ## Links -/

namespace Chain

theorem links_cons_cons (c d : Condition) (cs : List Condition) :
    (ofConditions (c :: d :: cs)).links
      = .predicate c.predicate :: .connective (c.joiner.getD .and) ::
          (ofConditions (d :: cs)).links :=
  rfl

theorem getElem?_links_even : ∀ (cs : List Condition) (i : Nat),
    (ofConditions cs).links[2 * i]? = cs[i]?.map fun c => .predicate c.predicate
  | [], _ => rfl
  | [_], 0 => rfl
  | [_], _ + 1 => rfl
  | _ :: _ :: _, 0 => rfl
  | c :: d :: cs, i + 1 => by
      rw [links_cons_cons, List.getElem?_cons_succ, ← getElem?_links_even (d :: cs) i]
      rfl

theorem getElem?_links_odd : ∀ (cs : List Condition) (i : Nat),
    (ofConditions cs).links[2 * i + 1]?
      = cs.dropLast[i]?.map fun c => .connective (c.joiner.getD .and)
  | [], _ => rfl
  | [_], _ => rfl
  | _ :: _ :: _, 0 => rfl
  | c :: d :: cs, i + 1 => by
      rw [links_cons_cons, List.dropLast_cons_cons, List.getElem?_cons_succ,
        List.getElem?_cons_succ, ← getElem?_links_odd (d :: cs) i]
      rfl

theorem predicates_ofConditions : ∀ cs : List Condition,
    (ofConditions cs).predicates = cs.map Condition.predicate
  | [] => rfl
  | [_] => rfl
  | c :: d :: cs => congrArg (c.predicate :: ·) (predicates_ofConditions (d :: cs))

theorem connectives_ofConditions : ∀ cs : List Condition,
    (ofConditions cs).connectives = cs.dropLast.map fun c => c.joiner.getD .and
  | [] => rfl
  | [_] => rfl
  | c :: d :: cs => congrArg (c.joiner.getD .and :: ·) (connectives_ofConditions (d :: cs))

end Chain

/-! ## Groups -/

/-- The parts of a list of conditions, cut behind every condition but the last
that says OR. -/
structure CutAtOrs (cs : List Condition)
    (parts : List (List Condition)) : Prop where
  together : parts.flatten = cs
  nonempty : [] ∉ parts
  within : ∀ part ∈ parts, ∀ c ∈ part.dropLast, c.joiner ≠ some .or
  ends : ∀ part ∈ parts.dropLast, ∀ c ∈ part.getLast?, c.joiner = some .or

/-- A relation that does not look at the next item holds along a list if it
holds of all items but the last. -/
theorem isChain_left_iff {α : Type} {p : α → Prop} : ∀ {l : List α},
    l.IsChain (fun a _ => p a) ↔ ∀ a ∈ l.dropLast, p a
  | [] => by simp
  | [a] => by simp
  | a :: b :: l => by
      rw [List.isChain_cons_cons, List.dropLast_cons_cons, List.forall_mem_cons,
        isChain_left_iff]

theorem isChain_groupedWith_iff {part : List Condition} :
    part.IsChain (fun c d => c.groupedWith d) ↔
      ∀ c ∈ part.dropLast, c.joiner ≠ some .or := by
  rw [← isChain_left_iff]
  simp [Condition.groupedWith]

theorem isChain_ends_iff {parts : List (List Condition)} (hne : [] ∉ parts) :
    parts.IsChain
        (fun part next =>
          ∃ ha hb, (part.getLast ha).groupedWith (next.head hb) = false) ↔
      ∀ part ∈ parts.dropLast, ∀ c ∈ part.getLast?, c.joiner = some .or := by
  rw [← isChain_left_iff]
  constructor
  · refine List.IsChain.imp fun part next => ?_
    rintro ⟨ha, _, hcut⟩ c hc
    rw [List.getLast?_eq_some_getLast ha, Option.mem_some_iff] at hc
    subst hc
    simpa [Condition.groupedWith] using hcut
  · refine List.IsChain.imp_of_mem_imp fun part next hpart hnext hends => ?_
    have ha : part ≠ [] := fun h => hne (h ▸ hpart)
    have hb : next ≠ [] := fun h => hne (h ▸ hnext)
    refine ⟨ha, hb, ?_⟩
    simpa [Condition.groupedWith] using hends _ (List.getLast?_eq_some_getLast ha)

/-- There is one way to cut the conditions at their ORs. -/
theorem cutAtOrs_iff {cs : List Condition} {parts : List (List Condition)} :
    CutAtOrs cs parts ↔ parts = cs.splitBy Condition.groupedWith := by
  rw [eq_comm, List.splitBy_eq_iff]
  constructor
  · rintro ⟨htogether, hne, hwithin, hends⟩
    exact ⟨htogether.symm, hne, fun part hpart => isChain_groupedWith_iff.mpr (hwithin part hpart),
      (isChain_ends_iff hne).mpr hends⟩
  · rintro ⟨htogether, hne, hwithin, hends⟩
    exact ⟨htogether.symm, hne, fun part hpart => isChain_groupedWith_iff.mp (hwithin part hpart),
      (isChain_ends_iff hne).mp hends⟩

/-- No OR stands within a part. -/
theorem countP_or_eq_zero {part : List Condition}
    (hwithin : ∀ c ∈ part.dropLast, c.joiner ≠ some .or) :
    part.dropLast.countP (fun c => c.joiner = some .or) = 0 := by
  rw [List.countP_eq_zero]
  intro c hc
  simpa using hwithin c hc

/-- A part with others behind it has one OR, at its end. -/
theorem countP_or_eq_one {part : List Condition} (hne : part ≠ [])
    (hwithin : ∀ c ∈ part.dropLast, c.joiner ≠ some .or)
    (hends : ∀ c ∈ part.getLast?, c.joiner = some .or) :
    part.countP (fun c => c.joiner = some .or) = 1 := by
  have hlast := hends _ (List.getLast?_eq_some_getLast hne)
  rw [← List.dropLast_concat_getLast hne, List.countP_append, countP_or_eq_zero hwithin]
  simp [hlast]

/-- There is one part more than there are ORs with a condition behind them. -/
theorem CutAtOrs.length_eq :
    ∀ {parts : List (List Condition)} {cs : List Condition},
    CutAtOrs cs parts →
      parts.length
        = if cs = [] then 0
          else cs.dropLast.countP (fun c => c.joiner = some .or) + 1
  | [], _, ⟨htogether, _, _, _⟩ => by
      subst htogether
      rfl
  | [part], _, ⟨htogether, hne, hwithin, _⟩ => by
      obtain rfl : part = _ := by simpa using htogether
      have hpart : part ≠ [] := fun h => hne (h ▸ List.mem_cons_self)
      rw [if_neg hpart, countP_or_eq_zero (hwithin part List.mem_cons_self)]
      rfl
  | part :: next :: parts, _, ⟨htogether, hne, hwithin, hends⟩ => by
      obtain ⟨hpart, hnext, -⟩ : part ≠ [] ∧ next ≠ [] ∧ [] ∉ parts := by
        simpa [eq_comm] using hne
      obtain ⟨hwithinPart, hwithinRest⟩ := List.forall_mem_cons.mp hwithin
      obtain ⟨hendsPart, hendsRest⟩ := List.forall_mem_cons.mp hends
      -- The rest is cut in the same way, and the OR that cuts it off ends the
      -- first part.
      have hrest : CutAtOrs (next :: parts).flatten (next :: parts) :=
        ⟨rfl, fun h => hne (List.mem_cons_of_mem _ h), hwithinRest, hendsRest⟩
      have hrestNe : (next :: parts).flatten ≠ [] := by simp [hnext]
      have hlength := hrest.length_eq
      rw [if_neg hrestNe] at hlength
      rw [List.flatten_cons] at htogether
      subst htogether
      rw [if_neg (by simp [hpart]), List.dropLast_append_of_ne_nil hrestNe, List.countP_append,
        countP_or_eq_one hpart hwithinPart hendsPart, List.length_cons, hlength, Nat.add_comm 1]

/-! ## Chain and groups -/

/-- The chain of a where clause has the predicates of its conditions in
order, and between any two of them what joins the first to the second, or
AND.  Its groups are the predicates of the conditions cut at their ORs: none
of them is empty, they hold all predicates in order, and there is one more of
them than there are ORs with a condition behind them. -/
theorem chain_keeps_conditions (cs : List Condition) :
    let chain := Chain.ofConditions cs
    (∀ i, chain.links[2 * i]? = cs[i]?.map fun c => .predicate c.predicate) ∧
    (∀ i, chain.links[2 * i + 1]?
      = cs.dropLast[i]?.map fun c => .connective (c.joiner.getD .and)) ∧
    chain.predicates = cs.map Condition.predicate ∧
    chain.connectives = (cs.dropLast.map fun c => c.joiner.getD .and) ∧
    chain.predicates.length = cs.length ∧ chain.connectives.length = cs.length - 1 ∧
    (∃ parts, (∀ cut, CutAtOrs cs cut ↔ cut = parts) ∧
      chain.groups = parts.map (List.map Condition.predicate)) ∧
    [] ∉ chain.groups ∧ chain.groups.flatten = chain.predicates ∧
    chain.groups.length
      = if cs = [] then 0 else cs.dropLast.countP (fun c => c.joiner = some .or) + 1 := by
  intro chain
  have hpredicates := Chain.predicates_ofConditions cs
  have hconnectives := Chain.connectives_ofConditions cs
  have hgroups : chain.groups = (cs.splitBy Condition.groupedWith).map _ :=
    Chain.groups_ofConditions cs
  have hcut : CutAtOrs cs (cs.splitBy Condition.groupedWith) := cutAtOrs_iff.mpr rfl
  refine ⟨Chain.getElem?_links_even cs, Chain.getElem?_links_odd cs, hpredicates, hconnectives,
    ?_, ?_, ⟨_, fun _ => cutAtOrs_iff, hgroups⟩, ?_, ?_, ?_⟩
  · rw [hpredicates, List.length_map]
  · rw [hconnectives, List.length_map, List.length_dropLast]
  · simp [hgroups]
  · rw [hgroups, hpredicates, ← List.map_flatten, hcut.together]
  · rw [hgroups, List.length_map, hcut.length_eq]

end CsvQuery
