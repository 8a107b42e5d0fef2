/-
Columns by name, and rows cut down to the selected ones.

Everything that looks up a name finds the first column that has it: the
header, the index for conditions and sorting, and the selection.  So the
selected places are those of the selected names, every one of them is found
again when a row is projected, and projecting never fails.
-/
import CsvQuery.Proofs.Engine.Meaning
import Mathlib.Data.List.Basic

namespace CsvQuery

/-! ## First columns -/

theorem idxOf?_of_mem {name : String} : ∀ {names : List String}, name ∈ names →
    names.idxOf? name = some (names.idxOf name)
  | [], h => by cases h
  | first :: names, h => by
      rw [List.idxOf?_cons]
      by_cases hfirst : first = name
      · simp [hfirst]
      · have hmem : name ∈ names := (List.mem_cons.mp h).resolve_left (Ne.symm hfirst)
        simp [hfirst, idxOf?_of_mem hmem, List.idxOf_cons_ne names hfirst]

theorem nodup_eraseDups : ∀ names : List String, names.eraseDups.Nodup
  | [] => List.nodup_nil
  | name :: names => by
      rw [List.eraseDups_cons, List.nodup_cons]
      exact ⟨by simp, nodup_eraseDups _⟩
termination_by names => names.length
decreasing_by exact Nat.lt_succ_of_le (List.length_filter_le _ names)

theorem lookup_zipIdx (name : String) : ∀ (names : List String) (k : Nat),
    (names.zipIdx k).lookup name = (names.idxOf? name).map (· + k)
  | [], _ => rfl
  | first :: names, k => by
      rw [List.zipIdx_cons, List.lookup_cons, List.idxOf?_cons,
        lookup_zipIdx name names (k + 1)]
      by_cases hfirst : first = name
      · simp [hfirst]
      · rw [beq_false_of_ne hfirst, beq_false_of_ne (Ne.symm hfirst)]
        cases names.idxOf? name with
        | none => rfl
        | some n => simp [Nat.add_comm, Nat.add_left_comm]

namespace ColumnIndex

theorem position?_add (index : ColumnIndex) (column : String × Nat)
    (name : String) :
    (index.add column).position? name
      = (index.position? name).or ([column].lookup name) := by
  unfold add
  split
  · next hcontains =>
      cases hposition : index.position? name with
      | some p => rfl
      | none =>
          -- The column that is left out has another name.
          have hne : column.1 ≠ name := by
            rintro rfl
            simp [contains, hposition] at hcontains
          rw [List.lookup_cons, beq_false_of_ne (Ne.symm hne)]
          rfl
  · rw [position?, List.lookup_append]
    rfl

theorem position?_foldl_add (name : String) : ∀ (columns : List (String × Nat))
    (index : ColumnIndex), (columns.foldl add index).position? name
      = (index.position? name).or (columns.lookup name)
  | [], index => by simp
  | column :: columns, index => by
      rw [List.foldl_cons, position?_foldl_add name columns, position?_add,
        Option.or_assoc]
      congr 1
      rw [← List.lookup_append]
      rfl

/-- The index finds what the header finds. -/
theorem position?_ofHeader (h : Header) (name : String) :
    (ofHeader h).position? name = h.names.idxOf? name := by
  rw [ofHeader, position?_foldl_add, Header.columns, lookup_zipIdx]
  simp [position?]

end ColumnIndex

namespace Selection

/-! ## Selected places -/

theorem firstsFrom_zipIdx : ∀ (names seen : List String) (k : Nat),
    firstsFrom seen (names.zipIdx k)
      = (names.filter fun name => !seen.contains name).eraseDups.map
          fun name => (name, k + names.idxOf name)
  | [], _, _ => rfl
  | first :: names, seen, k => by
      rw [List.zipIdx_cons, firstsFrom]
      split
      · next hseen =>
          rw [firstsFrom_zipIdx names seen (k + 1),
            List.filter_cons_of_neg (by simpa using hseen)]
          refine List.map_congr_left fun name hname => ?_
          have hne : first ≠ name := by
            rintro rfl
            obtain ⟨-, hunseen⟩ := List.mem_filter.mp (List.mem_eraseDups.mp hname)
            rw [hseen] at hunseen
            cases hunseen
          rw [List.idxOf_cons_ne names hne, Nat.succ_eq_add_one, Nat.add_right_comm]
          rfl
      · next hseen =>
          rw [firstsFrom_zipIdx names (first :: seen) (k + 1),
            List.filter_cons_of_pos (by simpa using hseen), List.eraseDups_cons, List.map_cons,
            List.idxOf_cons_self, List.filter_filter]
          congr 1
          have hfilter : (names.filter fun name => !(first :: seen).contains name)
              = names.filter fun name => !(name == first) && !seen.contains name := by
            refine List.filter_congr fun name _ => ?_
            rw [List.contains_cons, Bool.not_or]
          rw [← hfilter]
          refine List.map_congr_left fun name hname => ?_
          have hne : first ≠ name := by
            rintro rfl
            obtain ⟨-, hunseen⟩ := List.mem_filter.mp (List.mem_eraseDups.mp hname)
            simp at hunseen
          rw [List.idxOf_cons_ne names hne, Nat.succ_eq_add_one, Nat.add_right_comm]
          rfl

/-- The first columns are those of the names without their repeats. -/
theorem firsts_eq (h : Header) :
    firsts h = h.names.eraseDups.map fun name =>
      (name, h.names.idxOf name) := by
  rw [firsts, Header.columns, firstsFrom_zipIdx]
  have hall : (h.names.filter fun name => !([] : List String).contains name) = h.names := by
    simp
  simp only [hall, Nat.zero_add]

/-- The selection of some names of a header. -/
def ofColumns (header selected : List String) : Selection where
  names := selected
  places := (header.eraseDups.filter selected.contains).map fun name => (header.idxOf name, name)

theorem all_eq (h : Header) : all h = ofColumns h.names h.names.eraseDups := by
  have hall : h.names.eraseDups.filter h.names.eraseDups.contains = h.names.eraseDups :=
    List.filter_eq_self.mpr fun name hname => by simpa using hname
  rw [all, firsts_eq, ofColumns, hall, List.map_map, List.map_map]
  congr 1
  exact List.map_id _

theorem named_eq {h : Header} {selected : List String}
    (hknown : ∀ name ∈ selected, name ∈ h.names) :
    named h selected = .ok (ofColumns h.names selected) := by
  have hnone : selected.find? (fun name => (h.position? name).isNone) = none := by
    rw [List.find?_eq_none]
    intro name hname
    simp [Header.position?, idxOf?_of_mem (hknown name hname)]
  rw [named, hnone, firsts_eq, ofColumns, List.filter_map, List.map_map]
  rfl

/-! ## Projected rows -/

/-- A pair made from a name is found by its key, if no other name has that
key. -/
theorem lookup_map_of_inj {α β : Type} [DecidableEq α] {f : String → α}
    {g : String → β} :
    ∀ {names : List String} {name : String},
      name ∈ names → (∀ a ∈ names, f a = f name → a = name) →
        (names.map fun n => (f n, g n)).lookup (f name) = some (g name)
  | first :: names, name, hmem, hinj => by
      rw [List.map_cons, List.lookup_cons]
      by_cases hfirst : f first = f name
      · rw [hinj first List.mem_cons_self hfirst]
        simp
      · have hne : name ≠ first := by
          rintro rfl
          exact hfirst rfl
        rw [beq_false_of_ne (Ne.symm hfirst)]
        exact lookup_map_of_inj ((List.mem_cons.mp hmem).resolve_left hne)
          fun a ha => hinj a (List.mem_cons_of_mem _ ha)

theorem fieldsAt_eq {s : Selection} {header : List String} (row : Row) :
    ∀ {names : List String},
    (∀ name ∈ names, s.column? (header.idxOf name) = some name) →
      s.fieldsAt row (names.map header.idxOf)
        = .ok (names.map fun name => (name, Table.field header row name))
  | [], _ => rfl
  | name :: names, hnames => by
      rw [List.map_cons, fieldsAt, hnames name List.mem_cons_self,
        fieldsAt_eq row fun n hn => hnames n (List.mem_cons_of_mem _ hn)]
      rfl

/-- Projecting never fails. -/
theorem project_ofColumns (header selected : List String) (row : Row) :
    (ofColumns header selected).project row
      = .ok (Table.project header selected row) := by
  have hpositions : (ofColumns header selected).positions
      = (header.eraseDups.filter selected.contains).map header.idxOf := by
    rw [positions, ofColumns, List.map_map]
    rfl
  rw [project, hpositions]
  refine fieldsAt_eq row fun name hname => ?_
  refine lookup_map_of_inj hname fun a ha => (List.idxOf_inj ?_).mp
  exact List.mem_eraseDups.mp (List.mem_filter.mp ha).1

theorem fieldsAt_isOk (s : Selection) (row : Row) : ∀ {positions : List Nat},
    (∀ position ∈ positions, (s.column? position).isSome) →
      ∃ fields, s.fieldsAt row positions = .ok fields
  | [], _ => ⟨[], rfl⟩
  | position :: positions, h => by
      obtain ⟨hposition, hpositions⟩ := List.forall_mem_cons.mp h
      obtain ⟨name, hname⟩ := Option.isSome_iff_exists.mp hposition
      obtain ⟨fields, hfields⟩ := fieldsAt_isOk s row hpositions
      exact ⟨(name, row.getD position "") :: fields, by rw [fieldsAt, hname, hfields]; rfl⟩

/-- Whatever is selected, every place of it has its name. -/
theorem project_isOk (s : Selection) (row : Row) :
    ∃ fields, s.project row = .ok fields := by
  refine s.fieldsAt_isOk row fun position hposition => ?_
  obtain ⟨place, hplace, rfl⟩ := List.mem_map.mp hposition
  exact List.lookup_isSome_iff.mpr ⟨place, hplace, beq_self_eq_true place.1⟩

/-- So a selection makes a result of every row. -/
theorem exists_project (s : Selection) :
    ∃ f : Row → ResultRow, ∀ row, s.project row = .ok (f row) :=
  Classical.skolem.mp s.project_isOk

end Selection
end CsvQuery
