/-
The names of a list that occur more than once.

They are told apart by two lists, of the names met so far and of those met
twice (`Noted`).  Whether a name is told where it stands depends on how often
it has been met and on nothing else (`repeatedFrom_cons`), so it is told
where it stands for the second time (`repeatedNames_places`) and not again
(`nodup_repeatedNames`).
-/
import CsvQuery.Query.Parse
import Mathlib.Data.List.Forall2

namespace CsvQuery

/-! ## Names met so far -/

/-- What is known of the names in front: `seen` holds those met at least once,
`reported` those met at least twice. -/
structure Noted (front seen reported : List String) : Prop where
  seen : ∀ name, name ∈ seen ↔ 1 ≤ front.count name
  reported : ∀ name, name ∈ reported ↔ 2 ≤ front.count name

theorem noted_nil : Noted [] [] [] := by
  constructor <;> simp

theorem le_count_concat {front : List String} {last name : String} {k : Nat} :
    k + 1 ≤ (front ++ [last]).count name ↔
      k + 1 ≤ front.count name ∨ name = last ∧ k ≤ front.count last := by
  rw [List.count_append, List.count_singleton]
  by_cases hname : name = last
  · subst hname
    simp only [beq_self_eq_true, if_true, true_and]
    omega
  · simp [hname, Ne.symm hname]

/-- A name that is met is among those met once, and among those met twice if
it was among those met once. -/
theorem Noted.concat {front seen reported seen' reported' : List String}
    {name : String} (h : Noted front seen reported)
    (hseen : ∀ other, other ∈ seen' ↔ other ∈ seen ∨ other = name)
    (hreported : ∀ other, other ∈ reported' ↔
        other ∈ reported ∨ other = name ∧ name ∈ seen) :
    Noted (front ++ [name]) seen' reported' := by
  constructor
  · intro other
    rw [hseen, h.seen, le_count_concat]
    simp
  · intro other
    rw [hreported, h.reported, h.seen, le_count_concat]

/-- The name in front is told if it has been met once before, and it has been
met from then on. -/
theorem repeatedFrom_cons {front seen reported : List String}
    (h : Noted front seen reported) (name : String) (names : List String) :
    ∃ seen' reported',
      Noted (front ++ [name]) seen' reported' ∧
        repeatedFrom seen reported (name :: names)
          = (if front.count name = 1 then [name] else [])
            ++ repeatedFrom seen' reported' names := by
  rw [repeatedFrom]
  by_cases hmet : name ∈ seen
  · rw [if_pos (List.contains_iff_mem.mpr hmet)]
    by_cases htold : name ∈ reported
    · refine ⟨seen, reported, h.concat (fun other => ?_) (fun other => ?_), ?_⟩
      · exact (or_iff_left_of_imp fun hother => hother ▸ hmet).symm
      · exact (or_iff_left_of_imp fun hother => hother.1 ▸ htold).symm
      · have htwice := (h.reported name).mp htold
        rw [if_pos (List.contains_iff_mem.mpr htold), if_neg (by omega)]
        rfl
    · refine ⟨seen, name :: reported, h.concat (fun other => ?_) (fun other => ?_), ?_⟩
      · exact (or_iff_left_of_imp fun hother => hother ▸ hmet).symm
      · simp [hmet, or_comm]
      · have honce := (h.seen name).mp hmet
        have hnotTwice := mt (h.reported name).mpr htold
        rw [if_neg (by simpa using htold), if_pos (by omega)]
        rfl
  · refine ⟨name :: seen, reported, h.concat (fun other => ?_) (fun other => ?_), ?_⟩
    · simp [or_comm]
    · simp [hmet]
    · have hnotOnce := mt (h.seen name).mpr hmet
      rw [if_neg (by simpa using hmet), if_neg (by omega)]
      rfl

/-! ## Names told -/

/-- The name stands at the place for the second time. -/
structure SecondAt (names : List String) (name : String) (p : Nat) : Prop where
  here : names[p]? = some name
  onceBefore : (names.take p).count name = 1

theorem mem_repeatedFrom_iff {name : String} :
    ∀ {names front seen reported : List String},
    Noted front seen reported →
      (name ∈ repeatedFrom seen reported names ↔
        front.count name ≤ 1 ∧ 2 ≤ (front ++ names).count name)
  | [], front, _, _, _ => by
      simp only [repeatedFrom, List.not_mem_nil, List.append_nil, false_iff]
      omega
  | first :: names, front, _, _, h => by
      obtain ⟨seen', reported', hnoted, hstep⟩ := repeatedFrom_cons h first names
      have hall : front ++ [first] ++ names = front ++ first :: names := by simp
      rw [hstep, List.mem_append, mem_repeatedFrom_iff hnoted, hall]
      by_cases hname : first = name
      · subst hname
        have hhere : first ∈ (if front.count first = 1 then [first] else []) ↔
            front.count first = 1 := by
          split <;> simp [*]
        simp only [hhere, List.count_append, List.count_cons_self, List.count_nil]
        omega
      · have hnowhere : name ∉ (if front.count first = 1 then [first] else []) := by
          split <;> simp [Ne.symm hname]
        have hfront : (front ++ [first]).count name = front.count name := by
          simp [List.count_append, hname]
        simp only [hnowhere, hfront, false_or]

theorem nodup_repeatedFrom :
    ∀ (names : List String) {front seen reported : List String},
    Noted front seen reported → (repeatedFrom seen reported names).Nodup
  | [], _, _, _, _ => List.nodup_nil
  | first :: names, front, _, _, h => by
      obtain ⟨seen', reported', hnoted, hstep⟩ := repeatedFrom_cons h first names
      have hnames := nodup_repeatedFrom names hnoted
      rw [hstep]
      split
      · next honce =>
          -- From here on the name has been met twice.
          refine List.nodup_cons.mpr ⟨fun hmem => ?_, hnames⟩
          have hcount := ((mem_repeatedFrom_iff hnoted).mp hmem).1
          rw [List.count_append, List.count_singleton_self] at hcount
          omega
      · exact hnames

/-- Every name that is told stands behind the front for the second time, each
one behind the names told before it. -/
theorem repeatedFrom_places :
    ∀ (names : List String) {front seen reported : List String},
    Noted front seen reported → ∃ places : List Nat,
      places.Pairwise (· < ·) ∧ (∀ p ∈ places, front.length ≤ p) ∧
        List.Forall₂ (SecondAt (front ++ names))
          (repeatedFrom seen reported names) places
  | [], _, _, _, _ => ⟨[], .nil, by simp, .nil⟩
  | first :: names, front, _, _, h => by
      obtain ⟨seen', reported', hnoted, hstep⟩ := repeatedFrom_cons h first names
      obtain ⟨places, hascend, hbehind, hplaces⟩ := repeatedFrom_places names hnoted
      rw [List.append_assoc] at hplaces
      have hlater : ∀ p ∈ places, front.length < p := by
        intro p hp
        have hp' := hbehind p hp
        rwa [List.length_append] at hp'
      rw [hstep]
      split
      · next honce =>
          refine ⟨front.length :: places, List.pairwise_cons.mpr ⟨hlater, hascend⟩, ?_, ?_⟩
          · exact List.forall_mem_cons.mpr
              ⟨Nat.le_refl _, fun p hp => Nat.le_of_lt (hlater p hp)⟩
          · exact .cons ⟨by simp, by simpa using honce⟩ hplaces
      · exact ⟨places, hascend, fun p hp => Nat.le_of_lt (hlater p hp), hplaces⟩

theorem mem_repeatedNames_iff {names : List String} {name : String} :
    name ∈ repeatedNames names ↔ 2 ≤ names.count name := by
  rw [repeatedNames, mem_repeatedFrom_iff noted_nil]
  simp

theorem nodup_repeatedNames
    (names : List String) : (repeatedNames names).Nodup :=
  nodup_repeatedFrom names noted_nil

theorem repeatedNames_eq_nil_iff {names : List String} :
    repeatedNames names = [] ↔ names.Nodup := by
  rw [List.eq_nil_iff_forall_not_mem, List.nodup_iff_count]
  simp only [mem_repeatedNames_iff, Nat.not_le, Nat.lt_succ_iff]

/-- The names are told in the order of the places where they stand for the
second time. -/
theorem repeatedNames_places (names : List String) : ∃ places : List Nat,
    places.Pairwise (· < ·) ∧
    List.Forall₂ (SecondAt names) (repeatedNames names) places := by
  obtain ⟨places, hascend, -, hplaces⟩ := repeatedFrom_places names noted_nil
  exact ⟨places, hascend, hplaces⟩

end CsvQuery
