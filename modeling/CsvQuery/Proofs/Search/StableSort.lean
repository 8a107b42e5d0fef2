/-
Sorting rows.

The comparison of two fields answers for both directions, and where it is
transitive so is the comparison of rows, key after key.  A stable sort needs no
more than that, and only of the rows it sorts.  There is one stable sort of a
list, so that being one says everything about a list.
-/
import CsvQuery.Proofs.Engine.Meaning

namespace CsvQuery

/-! ## The order of two values -/

/-- A comparison answers for both directions. -/
def Oriented {α : Type} (cmp : α → α → Ordering) : Prop :=
  ∀ a b, cmp b a = (cmp a b).swap

theorem Binary64.compare?_swap (a b : Binary64) :
    b.compare? a = (a.compare? b).map Ordering.swap := by
  cases a with
  | nan => cases b <;> rfl
  | number r =>
      cases b with
      | nan => rfl
      | number s => exact congrArg some Std.OrientedOrd.eq_swap

theorem floatOrder?_swap (left right : String) :
    floatOrder? right left = (floatOrder? left right).map Ordering.swap := by
  unfold floatOrder?
  cases Binary64.read? left with
  | none => cases Binary64.read? right <;> rfl
  | some l =>
      cases Binary64.read? right with
      | none => rfl
      | some r => exact l.compare?_swap r

theorem sortCompare_swap (left right : String) :
    sortCompare right left = (sortCompare left right).swap := by
  have htext : compare right left = (compare left right).swap := Std.OrientedOrd.eq_swap
  unfold sortCompare
  rw [floatOrder?_swap left right, htext]
  cases Integer.read? left with
  | none => cases Integer.read? right <;> cases floatOrder? left right <;> rfl
  | some l =>
      cases Integer.read? right with
      | none => cases floatOrder? left right <;> rfl
      | some r => exact Std.OrientedOrd.eq_swap

/-! ## Key after key -/

theorem Oriented.swap {α : Type} {cmp : α → α → Ordering} (h : Oriented cmp) :
    Oriented fun a b => (cmp a b).swap :=
  fun a b => congrArg Ordering.swap (h a b)

theorem oriented_compareBy (names : List String) : ∀ refs : List ColumnRef,
    Oriented (Table.compareBy names refs)
  | [] => fun _ _ => rfl
  | ref :: refs => by
      intro a b
      rw [Table.compareBy, Table.compareBy, Ordering.swap_then, sortCompare_swap,
        oriented_compareBy names refs a b]

theorem oriented_compareIn (names : List String) (order : SortOrder) :
    Oriented (Table.compareIn names order) := by
  unfold Table.compareIn
  cases order.direction with
  | ascending => exact oriented_compareBy names order.columns
  | descending => exact (oriented_compareBy names order.columns).swap

section
variable {α : Type} {cmp : α → α → Ordering} {values : List α}

theorem ConsistentOn.mono (h : ConsistentOn cmp values) {some : List α}
    (hsome : ∀ a ∈ some, a ∈ values) : ConsistentOn cmp some :=
  fun a ha b hb c hc => h a (hsome a ha) b (hsome b hb) c (hsome c hc)

/-- Between values that tie all values in between tie too. -/
theorem ConsistentOn.eq_of_eq (hcmp : Oriented cmp)
    (h : ConsistentOn cmp values) {a b c : α} (ha : a ∈ values)
    (hb : b ∈ values) (hc : c ∈ values) (hab : cmp a b ≠ .gt)
    (hbc : cmp b c ≠ .gt) (hac : cmp a c = .eq) :
    cmp a b = .eq ∧ cmp b c = .eq := by
  have hca : cmp c a ≠ .gt := by simp [hcmp a c, hac]
  have hcb := h c hc a ha b hb hca hab
  have hba := h b hb c hc a ha hbc hca
  rw [hcmp b c] at hcb
  rw [hcmp a b] at hba
  constructor
  · cases hcase : cmp a b <;> simp_all
  · cases hcase : cmp b c <;> simp_all

/-- A first comparison with a second one for ties. -/
theorem ConsistentOn.then {cmp' : α → α → Ordering} (hcmp : Oriented cmp)
    (h : ConsistentOn cmp values) (h' : ConsistentOn cmp' values) :
    ConsistentOn (fun a b => (cmp a b).then (cmp' a b)) values := by
  have hfirst : ∀ {o o' : Ordering}, o.then o' ≠ .gt ↔ o ≠ .gt ∧ (o = .eq → o' ≠ .gt) := by
    intro o o'
    cases o <;> simp
  intro a ha b hb c hc hab hbc
  rw [hfirst] at hab hbc ⊢
  refine ⟨h a ha b hb c hc hab.1 hbc.1, fun hac => ?_⟩
  obtain ⟨heqab, heqbc⟩ := h.eq_of_eq hcmp ha hb hc hab.1 hbc.1 hac
  exact h' a ha b hb c hc (hab.2 heqab) (hbc.2 heqbc)

/-- The other direction is as consistent. -/
theorem ConsistentOn.swap (hcmp : Oriented cmp) (h : ConsistentOn cmp values) :
    ConsistentOn (fun a b => (cmp a b).swap) values := by
  intro a ha b hb c hc hab hbc
  dsimp only at hab hbc ⊢
  rw [← hcmp] at hab hbc ⊢
  exact h c hc b hb a ha hbc hab

end

theorem consistentOn_compareBy {names : List String} {rows : List Row} :
    ∀ {refs : List ColumnRef},
      (∀ ref ∈ refs,
        ConsistentOn sortCompare (rows.map (Table.field names · ref.column))) →
        ConsistentOn (Table.compareBy names refs) rows
  | [], _ => by simp [ConsistentOn, Table.compareBy]
  | ref :: refs, h => by
      obtain ⟨hfirst, hothers⟩ := List.forall_mem_cons.mp h
      refine ConsistentOn.then (fun a b => sortCompare_swap _ _) ?_
        (consistentOn_compareBy hothers)
      intro a ha b hb c hc
      exact hfirst _ (List.mem_map_of_mem ha) _ (List.mem_map_of_mem hb) _
        (List.mem_map_of_mem hc)

theorem consistentOn_compareIn {names : List String} {rows : List Row}
    {order : SortOrder}
    (h : ∀ ref ∈ order.columns,
      ConsistentOn sortCompare (rows.map (Table.field names · ref.column))) :
    ConsistentOn (Table.compareIn names order) rows := by
  unfold Table.compareIn
  cases order.direction with
  | ascending => exact consistentOn_compareBy h
  | descending =>
      exact (consistentOn_compareBy h).swap (oriented_compareBy names order.columns)

/-! ## Sorting -/

section
variable {α : Type} {cmp : α → α → Ordering} {rows : List α}

/-- The comparison on the rows to sort only, where it is transitive. -/
def leqAmong (cmp : α → α → Ordering) (rows : List α)
    (a b : {row // row ∈ rows}) : Bool :=
  cmp a b != .gt

theorem leqAmong_trans (h : ConsistentOn cmp rows)
    (a b c : {row // row ∈ rows}) (hab : leqAmong cmp rows a b)
    (hbc : leqAmong cmp rows b c) : leqAmong cmp rows a c := by
  simp only [leqAmong, bne_iff_ne] at hab hbc ⊢
  exact h a a.2 b b.2 c c.2 hab hbc

theorem leqAmong_total (hcmp : Oriented cmp) (a b : {row // row ∈ rows}) :
    leqAmong cmp rows a b || leqAmong cmp rows b a := by
  simp only [leqAmong]
  rw [hcmp a b]
  cases cmp a.1 b.1 <;> rfl

theorem mergeSort_attach (cmp : α → α → Ordering) (rows : List α) :
    (rows.attach.mergeSort (leqAmong cmp rows)).map Subtype.val
      = rows.mergeSort fun a b => cmp a b != .gt := by
  have hmap : (rows.attach.mergeSort (leqAmong cmp rows)).map Subtype.val
      = (rows.attach.map Subtype.val).mergeSort fun a b => cmp a b != .gt :=
    List.map_mergeSort fun _ _ _ _ => rfl
  rw [hmap, List.attach_map_subtype_val]

/-- Rows that are in order and among those to sort keep their places. -/
theorem sublist_mergeSort_of_consistent (hcmp : Oriented cmp)
    (h : ConsistentOn cmp rows) {part : List α} (hpart : part.Sublist rows)
    (hordered : part.Pairwise fun a b => cmp a b ≠ .gt) :
    part.Sublist (rows.mergeSort fun a b => cmp a b != .gt) := by
  rw [← rows.attach_map_subtype_val, List.sublist_map_iff] at hpart
  obtain ⟨part', hpart', rfl⟩ := hpart
  rw [← mergeSort_attach]
  refine List.Sublist.map _
    (List.sublist_mergeSort (leqAmong_trans h) (leqAmong_total hcmp) ?_ hpart')
  refine List.Pairwise.imp ?_ (List.pairwise_map.mp hordered)
  intro a b hab
  simpa [leqAmong] using hab

theorem stablySorted_mergeSort (hcmp : Oriented cmp)
    (h : ConsistentOn cmp rows) :
    StablySorted cmp rows (rows.mergeSort fun a b => cmp a b != .gt) where
  perm := List.mergeSort_perm rows _
  inOrder := by
    rw [← mergeSort_attach, List.pairwise_map]
    refine List.Pairwise.imp ?_
      (List.pairwise_mergeSort (leqAmong_trans h) (leqAmong_total hcmp) rows.attach)
    intro a b hab
    simpa [leqAmong] using hab
  stable := by
    intro a ha
    -- The rows that tie with `a` are in order, so the sort keeps all of them in
    -- their order.
    have hordered : (rows.filter fun b => cmp a b == .eq).Pairwise fun b c => cmp b c ≠ .gt := by
      refine List.pairwise_of_forall_mem_list fun b hb c hc => ?_
      obtain ⟨hb, hab⟩ := List.mem_filter.mp hb
      obtain ⟨hc, hac⟩ := List.mem_filter.mp hc
      have hba : cmp b a ≠ .gt := by simp [hcmp a b, eq_of_beq hab]
      exact h b hb a ha c hc hba (by simp [eq_of_beq hac])
    have hsub :=
      (sublist_mergeSort_of_consistent hcmp h List.filter_sublist hordered).filter
        fun b => cmp a b == .eq
    rw [List.filter_filter] at hsub
    simp only [Bool.and_self] at hsub
    refine (hsub.eq_of_length ?_).symm
    exact ((List.mergeSort_perm rows _).filter _).length_eq.symm

theorem Oriented.self (hcmp : Oriented cmp) (a : α) : cmp a a = .eq := by
  have h := hcmp a a
  cases hcase : cmp a a <;> simp_all

/-- The invariant of the comparison of two sorted lists from their fronts. -/
theorem eq_of_ordered_of_filter_eq (hcmp : Oriented cmp) :
    ∀ {s t : List α}, s.Perm t →
    s.Pairwise (fun a b => cmp a b ≠ .gt) →
    t.Pairwise (fun a b => cmp a b ≠ .gt) →
      (∀ a ∈ s, s.filter (fun b => cmp a b == .eq)
        = t.filter fun b => cmp a b == .eq) → s = t
  | [], _, hperm, _, _, _ => hperm.nil_eq
  | a :: s, [], hperm, _, _, _ => absurd hperm.eq_nil (by simp)
  | a :: s, b :: t, hperm, hs, ht, hfilter => by
      have hleq : cmp a b ≠ .gt := by
        rcases List.mem_cons.mp (hperm.mem_iff.mpr List.mem_cons_self) with rfl | hb
        · simp [hcmp.self]
        · exact List.rel_of_pairwise_cons hs hb
      have hgeq : cmp b a ≠ .gt := by
        rcases List.mem_cons.mp (hperm.mem_iff.mp List.mem_cons_self) with rfl | ha
        · simp [hcmp.self]
        · exact List.rel_of_pairwise_cons ht ha
      have htie : cmp a b = .eq := by
        rw [hcmp a b] at hgeq
        cases hcase : cmp a b <;> simp_all
      -- Both fronts are the first of the elements that tie with them.
      have hfront := hfilter a List.mem_cons_self
      rw [List.filter_cons_of_pos (by simp [hcmp.self]), List.filter_cons_of_pos (by simp [htie])]
        at hfront
      obtain ⟨rfl, -⟩ := List.cons.inj hfront
      congr 1
      refine eq_of_ordered_of_filter_eq hcmp hperm.cons_inv hs.of_cons ht.of_cons fun c hc => ?_
      have hc := hfilter c (List.mem_cons_of_mem _ hc)
      rw [List.filter_cons, List.filter_cons] at hc
      split at hc
      · exact (List.cons.inj hc).2
      · exact hc

/-- A list has one stable sort. -/
theorem StablySorted.unique (hcmp : Oriented cmp) {s t : List α}
    (hs : StablySorted cmp rows s) (ht : StablySorted cmp rows t) : s = t := by
  refine eq_of_ordered_of_filter_eq hcmp (hs.perm.trans ht.perm.symm) hs.inOrder ht.inOrder ?_
  intro a ha
  have hrows := hs.perm.mem_iff.mp ha
  rw [hs.stable a hrows, ht.stable a hrows]

end

/-! ## The sort of a search -/

theorem compareRows_eq (names : List String) (a b : Row) :
    ∀ refs : List ColumnRef,
    Search.compareRows (refs.map fun ref => names.idxOf ref.column) a b
      = Table.compareBy names refs a b
  | [] => rfl
  | ref :: refs => by
      rw [List.map_cons, Search.compareRows, compareRows_eq names a b refs]
      rfl

theorem inOrder_eq (names : List String) (order : SortOrder) :
    Search.inOrder order.direction
      (order.columns.map fun ref => names.idxOf ref.column)
      = fun a b => Table.compareIn names order a b != .gt := by
  funext a b
  unfold Search.inOrder Table.compareIn
  cases order.direction with
  | ascending =>
      dsimp only
      rw [compareRows_eq]
  | descending =>
      dsimp only
      rw [compareRows_eq]
      cases Table.compareBy names order.columns a b <;> rfl

end CsvQuery
