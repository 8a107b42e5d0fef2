/-
Every way to look up a column finds the same place.

A header is asked for the place of a name by filters and sorts, through an
index made from it, and by selections, which answer the other way round: they
are asked for the name at a place.  `lookups_agree` says that all of them
know a name by its first place in the header (`position?_eq_some_iff`), so
that no repeated name is read from two columns.
-/
import CsvQuery.Proofs.Selection.FirstColumns

namespace CsvQuery

namespace Header

theorem position?_eq_some_iff {h : Header} {name : String} {p : Nat} :
    h.position? name = some p ↔ FirstAt h.names name p := by
  rw [position?, List.idxOf?_eq_some_iff]
  constructor
  · rintro ⟨hlt, hhere, hbefore⟩
    refine ⟨List.getElem?_eq_some_iff.mpr ⟨hlt, hhere⟩, fun earlier hearlier hname => ?_⟩
    obtain ⟨_, hget⟩ := List.getElem?_eq_some_iff.mp hname
    exact hbefore earlier hearlier hget
  · rintro ⟨hhere, hbefore⟩
    obtain ⟨hlt, hget⟩ := List.getElem?_eq_some_iff.mp hhere
    refine ⟨hlt, hget, fun earlier hearlier hname => ?_⟩
    exact hbefore earlier hearlier
      (List.getElem?_eq_some_iff.mpr ⟨Nat.lt_trans hearlier hlt, hname⟩)

theorem position?_eq_none_iff {h : Header} {name : String} :
    h.position? name = none ↔ name ∉ h.names :=
  List.idxOf?_eq_none_iff

/-- The place of a name that the header has. -/
theorem position?_eq_some_idxOf_iff {h : Header} {name : String} {p : Nat}
    (hname : name ∈ h.names) :
    h.position? name = some p ↔ h.names.idxOf name = p := by
  rw [position?, idxOf?_of_mem hname, Option.some_inj]

end Header

namespace Selection

/-- A selection has at a place the selected name whose first place it is. -/
theorem column?_ofColumns_eq_some_iff {h : Header} {selected : List String}
    (hknown : ∀ name ∈ selected, name ∈ h.names) {p : Nat} {name : String} :
    (ofColumns h.names selected).column? p = some name ↔
      name ∈ selected ∧ h.position? name = some p := by
  have hmem : ∀ {n : String}, n ∈ h.names.eraseDups.filter selected.contains ↔ n ∈ selected := by
    intro n
    rw [List.mem_filter, List.mem_eraseDups, List.contains_iff_mem]
    exact ⟨And.right, fun hn => ⟨hknown n hn, hn⟩⟩
  constructor
  · intro hcolumn
    obtain ⟨front, back, hplaces, -⟩ := List.lookup_eq_some_iff.mp hcolumn
    have hplace : (p, name) ∈ (ofColumns h.names selected).places := by simp [hplaces]
    obtain ⟨n, hn, heq⟩ := List.mem_map.mp hplace
    obtain ⟨rfl, rfl⟩ := Prod.mk.inj heq
    have hselected := hmem.mp hn
    exact ⟨hselected, (Header.position?_eq_some_idxOf_iff (hknown n hselected)).mpr rfl⟩
  · rintro ⟨hselected, hposition⟩
    obtain rfl :=
      (Header.position?_eq_some_idxOf_iff (hknown name hselected)).mp hposition
    have hplaced := hmem.mpr hselected
    exact lookup_map_of_inj hplaced fun a ha => (List.idxOf_inj (hknown a (hmem.mp ha))).mp

theorem column?_all_eq_some_iff {h : Header} {p : Nat} {name : String} :
    (all h).column? p = some name ↔ h.position? name = some p := by
  rw [all_eq,
    column?_ofColumns_eq_some_iff fun name hname => List.mem_eraseDups.mp hname]
  refine and_iff_right_of_imp fun hposition => List.mem_eraseDups.mpr ?_
  exact List.mem_of_getElem? (Header.position?_eq_some_iff.mp hposition).here

/-! ## Select lists -/

theorem ofItems_of_mem_all {h : Header} {items : List SelectItem}
    (hall : .all ∈ items) :
    ofItems h items = .ok (all h) := by
  rw [ofItems, if_pos (List.contains_iff_mem.mpr hall)]

theorem ofItems_columns (h : Header) (refs : List ColumnRef) :
    ofItems h (refs.map .column) = named h (refs.map ColumnRef.column) := by
  have hnames : (refs.map SelectItem.column).filterMap SelectItem.column?
      = refs.map ColumnRef.column := by
    rw [List.filterMap_map]
    exact congrFun List.filterMap_eq_map refs
  rw [ofItems, if_neg (by simp), hnames]

/-- The first name that the header lacks is the one that is reported. -/
theorem named_eq_error_iff {h : Header} {e : QueryError} :
    ∀ {selected : List String},
    named h selected = .error e ↔
      First (· ∈ h.names) (fun name => name ∉ h.names ∧
        e = .unknownColumn name) selected
  | [] => by simp [named]
  | name :: names => by
      rw [First.cons_iff, ← named_eq_error_iff, named, named, List.find?_cons]
      by_cases hname : name ∈ h.names
      · have hfound : (h.position? name).isNone = false := by
          rwa [← Bool.not_eq_true, Option.isNone_iff_eq_none, Header.position?_eq_none_iff,
            Decidable.not_not]
        rw [hfound]
        cases names.find? fun name => (h.position? name).isNone with
        | none => simp [hname]
        | some other => simp [hname]
      · have hlacking : (h.position? name).isNone = true :=
          Option.isNone_iff_eq_none.mpr (Header.position?_eq_none_iff.mpr hname)
        rw [hlacking]
        simp [hname, eq_comm]

/-- The header, the index made from it and the selections of both kinds agree
on the place of every name, which is the first one that has it: no place of a
selection has another name, and no name has another place.  Columns that are
selected by name need to be in the header, and the first one that is not is
reported. -/
theorem lookups_agree (h : Header) :
    (∀ name, (ColumnIndex.ofHeader h).position? name = h.position? name ∧
      (∀ p, h.position? name = some p ↔ FirstAt h.names name p) ∧
      (h.position? name = none ↔ name ∉ h.names)) ∧
    (∀ items, SelectItem.all ∈ items → ∃ s, ofItems h items = .ok s ∧
      ∀ p name, s.column? p = some name ↔ h.position? name = some p) ∧
    ∀ refs : List ColumnRef,
      let result := ofItems h (refs.map .column)
      ((∃ s, result = .ok s) ↔ ∀ ref ∈ refs, ref.column ∈ h.names) ∧
      (∀ s, result = .ok s → ∀ p name, s.column? p = some name ↔
        name ∈ refs.map ColumnRef.column ∧ h.position? name = some p) ∧
      ∀ e, result = .error e ↔
        First (· ∈ h.names) (fun name => name ∉ h.names ∧ e = .unknownColumn name)
          (refs.map ColumnRef.column) := by
  refine ⟨fun name => ⟨ColumnIndex.position?_ofHeader h name, fun p => Header.position?_eq_some_iff,
    Header.position?_eq_none_iff⟩, fun items hall => ?_, fun refs => ?_⟩
  · exact ⟨all h, ofItems_of_mem_all hall, fun p name => column?_all_eq_some_iff⟩
  · intro result
    have hresult : result = named h (refs.map ColumnRef.column) :=
      ofItems_columns h refs
    rw [hresult]
    refine ⟨?_, ?_, fun e => named_eq_error_iff⟩
    · simp [named_eq_ok_iff]
    · intro s hs p name
      obtain ⟨hknown, rfl⟩ := named_eq_ok_iff.mp hs
      exact column?_ofColumns_eq_some_iff hknown

/-- A name that the header repeats, selected by a star, by name, and in front
of two names that are missing. -/
theorem repeated_name_has_one_place :
    let h : Header := ⟨⟨"t.csv"⟩, ["a", "b", "a", "c"]⟩
    let refs : List ColumnRef := [⟨"e", "c"⟩, ⟨"z", "a"⟩, ⟨"e", "c"⟩]
    let missing : List ColumnRef := [⟨"e", "a"⟩, ⟨"e", "y"⟩, ⟨"e", "x"⟩]
    (ColumnIndex.ofHeader h).position? "a" = some 0 ∧
    (∃ s, ofItems h [.column ⟨"e", "c"⟩, .all] = .ok s ∧
      s.column? 0 = some "a" ∧ s.column? 2 ≠ some "a") ∧
    (∃ s, ofItems h (refs.map .column) = .ok s ∧ s.column? 0 = some "a" ∧
      s.column? 3 = some "c" ∧ s.column? 2 ≠ some "a" ∧ s.column? 1 ≠ some "b") ∧
    ofItems h (missing.map .column) = .error (.unknownColumn "y") := by
  intro h refs missing
  obtain ⟨hname, hall, hnamed⟩ := lookups_agree h
  obtain ⟨hindex, -, -⟩ := hname "a"
  obtain ⟨all, hallOk, hallColumn⟩ := hall [.column ⟨"e", "c"⟩, .all] (by decide)
  obtain ⟨hsucceeds, hcolumn, -⟩ := hnamed refs
  obtain ⟨s, hs⟩ := hsucceeds.mpr (by decide)
  obtain ⟨-, -, hfails⟩ := hnamed missing
  refine ⟨hindex.trans (by decide), ⟨all, hallOk, ?_, ?_⟩, ⟨s, hs, ?_, ?_, ?_, ?_⟩, ?_⟩
  · exact (hallColumn _ _).mpr (by decide)
  · exact mt (hallColumn _ _).mp (by decide)
  · exact (hcolumn s hs _ _).mpr (by decide)
  · exact (hcolumn s hs _ _).mpr (by decide)
  · exact mt (hcolumn s hs _ _).mp (by decide)
  · exact mt (hcolumn s hs _ _).mp (by decide)
  · exact (hfails _).mpr ⟨["a"], "y", ["x"], rfl, by decide, by decide, rfl⟩

end Selection
end CsvQuery
