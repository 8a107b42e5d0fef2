/-
What a where clause means for a row.

The conditions of a where clause fall into groups at every OR that has a
condition behind it.  Within a group the predicates are tried from the left
as long as they hold, and groups are tried from the left as long as they come
to false; the first predicate or group that breaks this pattern decides.  So a
predicate that cannot be decided matters only where it is reached.

`groups_ofConditions` says that the chain of links falls into the same groups
as the list of conditions, `allHold_eq_iff` and `anyHolds_eq_iff` what the two
loops come to, and the last theorem puts them together.
-/
import CsvQuery.Condition.Chain

namespace CsvQuery

/-! ## Groups of conditions -/

/-- Are a condition and the next one in the same group?  A missing joiner
counts as AND. -/
def Condition.groupedWith (c _next : Condition) : Bool :=
  c.joiner != some .or

/-- The predicates of a where clause, cut behind every condition but the last
that says OR. -/
def Condition.groups (cs : List Condition) : List (List Predicate) :=
  (cs.splitBy Condition.groupedWith).map (List.map Condition.predicate)

@[simp] theorem Condition.groups_nil : Condition.groups [] = [] := rfl

section
variable {α : Type} (r : α → α → Bool) (a : α) (g : List α) (gs : List (List α))

theorem splitBy_loop_nil :
    List.splitBy.loop r [] a g gs = gs.reverse ++ [(a :: g).reverse] := by
  show ((a :: g).reverse :: gs).reverse = _
  simp

theorem splitBy_loop_cons (b : α) (l : List α) :
    List.splitBy.loop r (b :: l) a g gs
      = bif r a b then List.splitBy.loop r l b (a :: g) gs
        else List.splitBy.loop r l b [] ((a :: g).reverse :: gs) :=
  rfl

end

namespace Chain

theorem groupsFrom_joiner (current : List Predicate)
    (joiner : Option Connective) (p : Predicate) (links : List Link) :
    groupsFrom current (.connective (joiner.getD .and) :: .predicate p :: links)
      = if joiner = some .or then current.reverse :: groupsFrom [p] links
        else groupsFrom (p :: current) links := by
  cases joiner with
  | none => rfl
  | some k => cases k <;> rfl

/-- The invariant of the two scans: `c` is the latest condition, `g` the
others of its group and `gs` the groups before, both in reverse. -/
theorem groupsFrom_linksAfter (cs : List Condition) :
    ∀ (c : Condition) (g : List Condition) (gs : List (List Condition)),
      gs.reverse.map (List.map Condition.predicate)
          ++ groupsFrom ((c :: g).map Condition.predicate)
            (linksAfter c.joiner cs)
        = (List.splitBy.loop Condition.groupedWith cs c g gs).map
            (List.map Condition.predicate) := by
  induction cs with
  | nil =>
      intro c g gs
      rw [splitBy_loop_nil]
      simp [linksAfter, groupsFrom]
  | cons d cs ih =>
      intro c g gs
      rw [linksAfter, groupsFrom_joiner, splitBy_loop_cons]
      by_cases hor : c.joiner = some .or
      · have hcut : c.groupedWith d = false := by simp [Condition.groupedWith, hor]
        rw [if_pos hor, hcut, cond_false, ← ih d [] ((c :: g).reverse :: gs)]
        simp
      · have hgrouped : c.groupedWith d = true := by simp [Condition.groupedWith, hor]
        rw [if_neg hor, hgrouped, cond_true]
        exact ih d (c :: g) gs

theorem groups_ofConditions : ∀ cs : List Condition,
    (ofConditions cs).groups = Condition.groups cs
  | [] => rfl
  | c :: cs => groupsFrom_linksAfter cs c [] []

@[simp] theorem links_ofConditions_eq_nil {cs : List Condition} :
    (ofConditions cs).links = [] ↔ cs = [] := by
  cases cs <;> simp [ofConditions]

end Chain

/-! ## Outcomes of groups -/

/-- The first item with a property, items before it having another one. -/
def First {α : Type} (before here : α → Prop) (xs : List α) : Prop :=
  ∃ front x back, xs = front ++ x :: back ∧ (∀ y ∈ front, before y) ∧ here x

theorem First.cons_iff {α : Type} {before here : α → Prop} {x : α}
    {xs : List α} :
    First before here (x :: xs) ↔ here x ∨ before x ∧ First before here xs := by
  constructor
  · rintro ⟨front, y, back, heq, hfront, hy⟩
    cases front with
    | nil =>
        obtain ⟨rfl, rfl⟩ := List.cons.inj heq
        exact .inl hy
    | cons z front =>
        obtain ⟨rfl, rfl⟩ := List.cons.inj heq
        exact .inr ⟨hfront _ (List.mem_cons_self ..), front, y, back, rfl,
          fun w hw => hfront w (List.mem_cons_of_mem _ hw), hy⟩
  · rintro (hx | ⟨hx, front, y, back, rfl, hfront, hy⟩)
    · exact ⟨[], x, xs, rfl, fun _ h => absurd h List.not_mem_nil, hx⟩
    · refine ⟨x :: front, y, back, rfl, ?_, hy⟩
      intro w hw
      rcases List.mem_cons.mp hw with rfl | hw
      · exact hx
      · exact hfront w hw

@[simp] theorem First.nil_iff {α : Type} {before here : α → Prop} :
    First before here [] ↔ False :=
  ⟨fun ⟨front, x, back, heq, _⟩ => by simp at heq, False.elim⟩

theorem First.congr {α : Type} {before here here' : α → Prop} {xs : List α}
    (h : ∀ x, here x ↔ here' x) :
    First before here xs ↔ First before here' xs := by
  simp only [First, h]

section
variable (index : ColumnIndex) (row : Row)

/-- All predicates of a group hold. -/
def GroupHolds (group : List Predicate) : Prop :=
  ∀ p ∈ group, p.holds index row = .ok true

/-- A predicate of the group comes to `result`, and all before it hold. -/
def GroupStops (result : Except ResolveError Bool)
    (group : List Predicate) : Prop :=
  First (fun p => p.holds index row = .ok true) (fun p => p.holds index row = result) group

variable {index row}

theorem allHold_eq_true_iff : ∀ {ps : List Predicate},
    allHold index row ps = .ok true ↔ GroupHolds index row ps
  | [] => by simp [allHold, GroupHolds]
  | p :: ps => by
      have ih : allHold index row ps = .ok true ↔ GroupHolds index row ps :=
        allHold_eq_true_iff
      unfold GroupHolds at ih ⊢
      rw [List.forall_mem_cons, ← ih, allHold]
      cases hp : p.holds index row with
      | error e => simp
      | ok b => cases b <;> simp

theorem allHold_eq_iff {result : Except ResolveError Bool}
    (hr : result ≠ .ok true) :
    ∀ {ps : List Predicate}, allHold index row ps = result ↔
      GroupStops index row result ps
  | [] => by simpa [allHold, GroupStops] using hr.symm
  | p :: ps => by
      have ih : allHold index row ps = result ↔ GroupStops index row result ps :=
        allHold_eq_iff hr
      unfold GroupStops at ih ⊢
      rw [First.cons_iff, ← ih, allHold]
      cases hp : p.holds index row with
      | error e => simp
      | ok b =>
          cases b with
          | false => simp
          | true => simp [hr.symm]

theorem anyHolds_eq_false_iff : ∀ {groups : List (List Predicate)},
    anyHolds index row groups = .ok false ↔
      ∀ group ∈ groups, GroupStops index row (.ok false) group
  | [] => by simp [anyHolds]
  | group :: groups => by
      rw [List.forall_mem_cons, ← anyHolds_eq_false_iff, ← allHold_eq_iff (by simp),
        anyHolds]
      cases hg : allHold index row group with
      | error e => simp
      | ok b => cases b <;> simp

/-- What the loop over the groups comes to, other than false: the outcome of
the first group that does not come to false. -/
theorem anyHolds_eq_iff {result : Except ResolveError Bool}
    (hr : result ≠ .ok false) :
    ∀ {groups : List (List Predicate)}, anyHolds index row groups = result ↔
      First (GroupStops index row (.ok false))
        (fun group => allHold index row group = result) groups
  | [] => by simpa [anyHolds] using hr.symm
  | group :: groups => by
      rw [First.cons_iff, ← anyHolds_eq_iff hr, ← allHold_eq_iff (by simp), anyHolds]
      cases hg : allHold index row group with
      | error e => simp
      | ok b =>
          cases b with
          | true => simp
          | false => simp [hr.symm]

end

/-! ## The where clause -/

theorem Chain.holds_ofConditions (cs : List Condition) (index : ColumnIndex)
    (row : Row) :
    (Chain.ofConditions cs).holds index row
      = if cs = [] then .ok true
        else anyHolds index row (Condition.groups cs) := by
  unfold Chain.holds
  rw [Chain.groups_ofConditions]
  by_cases h : cs = [] <;> simp [h]

/-- A where clause is evaluated from the left, AND binding tighter than OR:
it holds of a row if some group does and every earlier group comes to false, it
fails if every group comes to false, and it cannot be decided exactly when a
predicate that is reached cannot. -/
theorem where_evaluates_leftToRight (cs : List Condition) (h : Header)
    (row : Row) :
    let index := ColumnIndex.ofHeader h
    let result := (Chain.ofConditions cs).holds index row
    (result = .ok true ↔ cs = [] ∨
      First (GroupStops index row (.ok false)) (GroupHolds index row) (Condition.groups cs)) ∧
    (result = .ok false ↔ cs ≠ [] ∧
      ∀ group ∈ Condition.groups cs, GroupStops index row (.ok false) group) ∧
    (∀ e, result = .error e ↔
      First (GroupStops index row (.ok false)) (GroupStops index row (.error e))
        (Condition.groups cs)) := by
  intro index result
  have hresult : result = if cs = [] then .ok true else anyHolds index row (Condition.groups cs) :=
    Chain.holds_ofConditions cs index row
  by_cases hcs : cs = []
  · subst hcs
    simp [hresult]
  · rw [if_neg hcs] at hresult
    rw [hresult]
    refine ⟨?_, ?_, fun e => ?_⟩
    · rw [anyHolds_eq_iff (by simp)]
      simpa [hcs] using First.congr fun _ => allHold_eq_true_iff
    · rw [anyHolds_eq_false_iff]
      simp [hcs]
    · rw [anyHolds_eq_iff (by simp)]
      exact First.congr fun _ => allHold_eq_iff (by simp)

end CsvQuery
