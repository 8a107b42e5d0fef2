/-
Columns that a select list repeats.

The entries are read one by one, and one that is no reference is reported and
left out (`finds_selectEntries`).  Only then the names of the others are
compared, so that the repeated ones are reported behind all other errors, and
a name is the same one under every table.
-/
import CsvQuery.Proofs.Query.Locality
import CsvQuery.Proofs.Query.Pieces

namespace CsvQuery

open Grammar Clause

/-! ## Entries -/

/-- The references among the entries of a select list, in order. -/
inductive Grammar.RefsAmong : List String → List ColumnRef → Prop
  | nil : RefsAmong [] []
  | ref {entry : String} {ref : ColumnRef} {entries : List String}
      {refs : List ColumnRef} :
      IsRef entry ref → RefsAmong entries refs →
        RefsAmong (entry :: entries) (ref :: refs)
  | other {entry : String} {entries : List String} {refs : List ColumnRef} :
      (∀ ref, ¬ IsRef entry ref) → RefsAmong entries refs →
        RefsAmong (entry :: entries) refs

theorem selectEntry_of_not_isRef {entry : String}
    (h : ∀ ref, ¬ IsRef entry ref) :
    ∃ fault, selectEntry entry = (none, [.invalidSelectItem fault]) := by
  unfold selectEntry
  split
  · exact ⟨_, rfl⟩
  · cases href : Token.columnRef entry.toList with
    | error fault => exact ⟨_, rfl⟩
    | ok ref => exact absurd (Token.columnRef_eq_ok_iff.mp href) (h ref)

/-- An entry is a reference, or it is reported. -/
theorem refsAmong_cons (entry : String) :
    ∃ (o : Option ColumnRef) (faults : List SelectFault),
      selectEntry entry = (o, faults.map .invalidSelectItem) ∧ ∀ {entries refs},
        RefsAmong entries refs →
        RefsAmong (entry :: entries) (o.toList ++ refs) := by
  by_cases h : ∃ ref, IsRef entry ref
  · obtain ⟨ref, href⟩ := h
    exact ⟨some ref, [], selectEntry_of_isRef href, .ref href⟩
  · have hother := not_exists.mp h
    obtain ⟨fault, hentry⟩ := selectEntry_of_not_isRef hother
    exact ⟨none, [fault], hentry, .other hother⟩

/-- Entries with a comma in front of each. -/
def behindCommas (entries : List String) : List String :=
  entries.flatMap fun entry => [",", entry]

theorem commaSeparated_cons (first : String) : ∀ others : List String,
    commaSeparated (first :: others) = first :: behindCommas others
  | [] => rfl
  | next :: others => congrArg ([first, ","] ++ ·) (commaSeparated_cons next others)

theorem selectEntries_of_noComma {entry : String} {rest : List String}
    (hrest : NoComma rest) :
    selectEntries entry rest
      = ⟨some (selectEntry entry).1.toList, (selectEntry entry).2, rest⟩ := by
  cases rest with
  | nil => rfl
  | cons token rest =>
      have htoken : token ≠ "," := by simpa [NoComma] using hrest
      simp [selectEntries, htoken]

/-- Reading the entries keeps the references and reports all others. -/
theorem finds_selectEntries {rest : List String} (hrest : NoComma rest) :
    ∀ (others : List String) (first : String),
      ∃ (refs : List ColumnRef) (faults : List SelectFault),
        RefsAmong (first :: others) refs ∧
        (selectEntries first).Finds (behindCommas others ++ rest) refs
          (faults.map .invalidSelectItem) rest
  | [], first => by
      obtain ⟨o, faults, hentry, hamong⟩ := refsAmong_cons first
      refine ⟨o.toList ++ [], faults, hamong .nil, ?_⟩
      show selectEntries first rest = _
      rw [selectEntries_of_noComma hrest, hentry, List.append_nil]
  | next :: others, first => by
      obtain ⟨o, faults, hentry, hamong⟩ := refsAmong_cons first
      obtain ⟨refs, others', hrefs, hfinds⟩ := finds_selectEntries hrest others next
      refine ⟨o.toList ++ refs, faults ++ others', hamong hrefs, ?_⟩
      show selectEntries first ("," :: next :: (behindCommas others ++ rest)) = _
      unfold Finds at hfinds
      simp [selectEntries, hentry, hfinds]

/-! ## Select lists -/

theorem finds_selectList {first : String} {others rest : List String}
    {refs : List ColumnRef} {faults : List SelectFault}
    (hfrom : ¬ Text.sameWord first "from") (hstar : first ≠ "*")
    (hentries : (selectEntries first).Finds (behindCommas others ++ rest) refs
      (faults.map .invalidSelectItem) rest) :
    selectList.Finds (commaSeparated (first :: others) ++ rest)
      (refs.map .column)
      (faults.map .invalidSelectItem ++
        (repeatedNames (refs.map ColumnRef.column)).map .duplicateColumn)
          rest := by
  have hreport : (report ((repeatedNames (refs.map ColumnRef.column)).map .duplicateColumn)).Finds
      rest () ((repeatedNames (refs.map ColumnRef.column)).map .duplicateColumn) rest := rfl
  rw [commaSeparated_cons, Finds, List.cons_append, selectList, if_neg hfrom,
    if_neg hstar]
  unfold selectColumns
  exact hentries.bind (hreport.map fun _ => refs.map SelectItem.column)

/-- A select list that is complete keeps its references, whatever stands
between them.  The names that they repeat are reported behind all other
errors: these are the names that occur at least twice, each of them once, in
the order of their second occurrences. -/
theorem repeated_columns_are_reported_once {first : String}
    {others rest : List String} (notFrom : ¬ Text.sameWord first "from")
    (notStar : first ≠ "*") (complete : NoComma rest) :
    ∃ (refs : List ColumnRef) (faults : List SelectFault)
        (repeated : List String)
      (places : List Nat),
      RefsAmong (first :: others) refs ∧
      selectList (commaSeparated (first :: others) ++ rest)
        = ⟨some (refs.map .column),
            faults.map .invalidSelectItem
              ++ repeated.map .duplicateColumn, rest⟩ ∧
      (∀ name, name ∈ repeated ↔ 2 ≤ (refs.map ColumnRef.column).count name) ∧
      repeated.Nodup ∧ places.Pairwise (· < ·) ∧
      List.Forall₂ (SecondAt (refs.map ColumnRef.column)) repeated places := by
  obtain ⟨refs, faults, hrefs, hentries⟩ := finds_selectEntries complete others first
  obtain ⟨places, hascend, hplaces⟩ := repeatedNames_places (refs.map ColumnRef.column)
  exact ⟨refs, faults, repeatedNames (refs.map ColumnRef.column), places, hrefs,
    finds_selectList notFrom notStar hentries, fun _ => mem_repeatedNames_iff,
    nodup_repeatedNames _, hascend, hplaces⟩

/-- Two names are repeated, one within the other, under several tables and
with entries between them that are no references. -/
theorem interleaved_repeats_are_reported_once :
    let entries := ["'e.a'", "*", "'e.b'", "e.x", "'z.b'", "'e.a'",
      "'e.B'", ",", "'e.a'"]
    let tokens := commaSeparated entries ++ ["FROM"]
    (∃ (refs : List ColumnRef) (faults : List SelectFault) (repeated : List String)
      (places : List Nat), RefsAmong entries refs ∧
        selectList tokens = ⟨some (refs.map .column),
          faults.map .invalidSelectItem ++ repeated.map .duplicateColumn, ["FROM"]⟩ ∧
        (∀ name, name ∈ repeated ↔ 2 ≤ (refs.map ColumnRef.column).count name) ∧
        repeated.Nodup ∧ places.Pairwise (· < ·) ∧
        List.Forall₂ (SecondAt (refs.map ColumnRef.column)) repeated places) ∧
      (selectList tokens).errors
        = [.invalidSelectItem .starNotAlone, .invalidSelectItem (.reference .unquoted "e.x"),
            .invalidSelectItem (.reference .unquoted ","), .duplicateColumn "b",
            .duplicateColumn "a"] :=
  ⟨repeated_columns_are_reported_once (by decide) (by decide) (by simp [NoComma]),
    by decide +kernel⟩

end CsvQuery
