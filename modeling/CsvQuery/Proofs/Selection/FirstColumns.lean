/-
Projected rows hold the first column of every selected name.

Whatever way a select list is written, its selection is that of some names of
the header (`eq_ofColumns_of_ofItems`), and all its places are first places of
names.  So a projected row has each selected name once, however often the
header or the select list repeats it, and a row may be of any length.
-/
import CsvQuery.Proofs.Selection.Projection

namespace CsvQuery

/-- The first place of a name in a header. -/
structure FirstAt (names : List String) (name : String)
    (position : Nat) : Prop where
  here : names[position]? = some name
  notBefore : ∀ earlier < position, names[earlier]? ≠ some name

theorem firstAt_idxOf {names : List String} {name : String} (h : name ∈ names) :
    FirstAt names name (names.idxOf name) where
  here := List.getElem?_eq_some_iff.mpr
    ⟨List.idxOf_lt_length_of_mem h, List.getElem_idxOf _⟩
  notBefore := by
    intro earlier hearlier hname
    obtain ⟨hlt, hget⟩ := List.getElem?_eq_some_iff.mp hname
    have hother : (names[earlier] == name) = false := List.not_of_lt_findIdx hearlier
    simp [hget] at hother

namespace Selection

/-- The names that a select list selects. -/
def namesOf (h : Header) (items : List SelectItem) : List String :=
  if items.contains .all then h.names.eraseDups else items.filterMap SelectItem.column?

theorem known_of_named {h : Header} {selected : List String} {s : Selection}
    (hs : named h selected = .ok s) : ∀ name ∈ selected, name ∈ h.names := by
  unfold named at hs
  cases hfind : selected.find? (fun name => (h.position? name).isNone) with
  | some name =>
      rw [hfind] at hs
      cases hs
  | none =>
      intro name hname
      simpa [Header.position?] using List.find?_eq_none.mp hfind name hname

/-- Columns are selected by name if the header has all of them. -/
theorem named_eq_ok_iff {h : Header} {selected : List String} {s : Selection} :
    named h selected = .ok s ↔
      (∀ name ∈ selected, name ∈ h.names) ∧ s = ofColumns h.names selected := by
  constructor
  · intro hs
    have hknown := known_of_named hs
    rw [named_eq hknown] at hs
    cases hs
    exact ⟨hknown, rfl⟩
  · rintro ⟨hknown, rfl⟩
    exact named_eq hknown

/-- A select list that can be resolved selects names of the header. -/
theorem eq_ofColumns_of_ofItems {h : Header} {items : List SelectItem}
    {s : Selection} (hs : ofItems h items = .ok s) :
    s = ofColumns h.names (namesOf h items) ∧
    ∀ name ∈ namesOf h items, name ∈ h.names := by
  unfold ofItems at hs
  unfold namesOf
  split at hs
  · next hall =>
      rw [if_pos hall]
      cases hs
      exact ⟨all_eq h, fun name hname => List.mem_eraseDups.mp hname⟩
  · next hall =>
      rw [if_neg hall]
      obtain ⟨hknown, rfl⟩ := named_eq_ok_iff.mp hs
      exact ⟨rfl, hknown⟩

/-- Projecting a row onto a selection never fails.  The row that it gives has
the selected names for its keys, each of them once, and each with the field
in the first column of that name, or empty where the row is too short; a star
selects the names of the header without repeats. -/
theorem projection_finds_first_columns {h : Header} {items : List SelectItem}
    {s : Selection} (selects : ofItems h items = .ok s) (row : Row) :
    s.names = namesOf h items ∧
    ∃ fields, s.project row = .ok fields ∧
      (fields.map Prod.fst).Nodup ∧
      (∀ name, name ∈ fields.map Prod.fst ↔ name ∈ s.names) ∧
      ∀ name ∈ s.names, ∃ position, FirstAt h.names name position ∧
        fields.lookup name = some (row.getD position "") := by
  obtain ⟨rfl, hknown⟩ := eq_ofColumns_of_ofItems selects
  generalize namesOf h items = selected at hknown
  have hkeys : (Table.project h.names selected row).map Prod.fst
      = h.names.eraseDups.filter selected.contains := by
    rw [Table.project, List.map_map]
    exact List.map_id _
  have hmem : ∀ name, name ∈ h.names.eraseDups.filter selected.contains ↔ name ∈ selected := by
    intro name
    rw [List.mem_filter, List.mem_eraseDups, List.contains_iff_mem]
    exact ⟨And.right, fun hname => ⟨hknown name hname, hname⟩⟩
  refine ⟨rfl, _, project_ofColumns h.names selected row, ?_, ?_, ?_⟩
  · rw [hkeys]
    exact (nodup_eraseDups h.names).filter _
  · rw [hkeys]
    exact hmem
  · intro name hname
    exact ⟨_, firstAt_idxOf (hknown name hname),
      lookup_map_of_inj ((hmem name).mpr hname) fun _ _ h => h⟩

/-- The header and the select list repeat a name, and the row ends in front
of the other selected column. -/
theorem short_row_has_first_columns :
    let h : Header := ⟨⟨"t.csv"⟩, ["a", "b", "a", "c"]⟩
    let items : List SelectItem :=
      [.column ⟨"e", "c"⟩, .column ⟨"e", "a"⟩, .column ⟨"e", "c"⟩]
    ∃ s, ofItems h items = .ok s ∧ s.names = ["c", "a", "c"] ∧
      ∃ fields, s.project ["1", "2"] = .ok fields ∧
        ∀ name ∈ ["c", "a", "c"], ∃ position, FirstAt h.names name position ∧
          fields.lookup name = some (["1", "2"].getD position "") := by
  intro h items
  have hselects : ofItems h items = .ok ⟨["c", "a", "c"], [(0, "a"), (3, "c")]⟩ := rfl
  obtain ⟨hnames, fields, hfields, -, -, hfirst⟩ :=
    projection_finds_first_columns hselects ["1", "2"]
  exact ⟨_, hselects, rfl, fields, hfields, hfirst⟩

end Selection
end CsvQuery
