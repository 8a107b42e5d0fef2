/-
What the answers of a csv text are made of.

The header is made of the first record of the text and the rows of the others,
one after the other, whatever is asked first and however often the header is
asked for.  The source of a whole file changes with a call in two things only:
a row takes a record, and any call marks it as begun.  The mark is seen in
nothing but the place that the fault of a cell gives (`unplaced_rowOf`).

A file that cannot be read to its end has the records of its beginning, which
are the first ones of the file (`Csv.recordsOf_prefix`), and the fault behind
them.
-/
import CsvQuery.Proofs.Source.Calls

namespace CsvQuery

/-! ## Faults without their place -/

/-- The fault, wherever it stands in the text. -/
def CsvFault.unplaced : CsvFault → CsvFault
  | .notText _ _ _ cell wellFormed => .notText 0 0 0 cell wellFormed
  | .unreadable fault => .unreadable fault

def SourceError.unplaced : SourceError → SourceError
  | .io fault => .io fault
  | .csv fault => .csv fault.unplaced
  | .noHeader name => .noHeader name

/-- What is asked for, or an error without its place. -/
def unplaced {α : Type} : Except SourceError α → Except SourceError α
  | .ok a => .ok a
  | .error e => .error e.unplaced

theorem unplaced_map {α β : Type} (f : α → β) (answer : Except SourceError α) :
    unplaced (answer.map f) = (unplaced answer).map f := by
  cases answer <;> rfl

theorem unplaced_eq_ok_iff {α : Type} {answer : Except SourceError α} {a : α} :
    unplaced answer = .ok a ↔ answer = .ok a := by
  cases answer <;> simp [unplaced]

/-! ## Records and answers -/

namespace Csv

/-- Every record has a cell. -/
theorem cells_ne_nil_of_mem_split {ended : Bool} (bytes : List UInt8) :
    ∀ {here start : Position} {mode : Mode} {cell : List UInt8}
      {cells : List (List UInt8)},
      ∀ r ∈ split ended here start mode cell cells bytes, r.cells ≠ [] := by
  induction bytes with
  | nil =>
      intro here start mode cell cells r hr
      cases ended with
      | false => cases mode <;> exact absurd hr List.not_mem_nil
      | true =>
          cases mode with
          | between => exact absurd hr List.not_mem_nil
          | _ =>
              obtain rfl := List.mem_singleton.mp hr
              simp
  | cons b bytes ih =>
      intro here start mode cell cells r hr
      rw [split] at hr
      dsimp only at hr
      split at hr
      · exact ih r hr
      · exact ih r hr
      · exact ih r hr
      · rcases List.mem_cons.mp hr with rfl | hr
        · simp
        · exact ih r hr

theorem cells_ne_nil_of_mem_recordsOf {ended : Bool} {bytes : List UInt8}
    {r : Record} (h : r ∈ recordsOf ended bytes) : r.cells ≠ [] := by
  unfold recordsOf at h
  split at h
  · exact cells_ne_nil_of_mem_split _ r h
  · exact cells_ne_nil_of_mem_split _ r h

/-- A record as a row, with the place where it begins for its faults. -/
def Record.row (r : Record) : Except SourceError Row :=
  CsvSource.decodeCells r.position 0 r.cells

/-- A record as a header, which is read at the start of the text. -/
def Record.header (r : Record) : Except SourceError (List String) :=
  (CsvSource.decodeCells .start 0 r.cells).map (List.map Text.trim)

end Csv

namespace CsvSource

/-- The next row when this record is the next one. -/
def rowAnswer : Option Csv.Record → Except SourceError (Option Row)
  | none => .ok none
  | some r => r.row.map some

/-- The header when this record is the first one. -/
def headerAnswer (name : String) :
    Option Csv.Record → Except SourceError (List String)
  | none => .error (.noHeader name)
  | some r => r.header

theorem rowAnswer_eq_end_iff {r : Option Csv.Record} :
    rowAnswer r = .ok none ↔ r = none := by
  cases r with
  | none => simp [rowAnswer]
  | some r => cases h : r.row <;> simp [rowAnswer, h, Except.map]

theorem unplaced_decodeCells (cells : List (List UInt8)) :
    ∀ (p p' : Csv.Position) (k : Nat),
    unplaced (decodeCells p k cells) = unplaced (decodeCells p' k cells) := by
  induction cells with
  | nil => exact fun _ _ _ => rfl
  | cons cell cells ih =>
      intro p p' k
      rw [decodeCells, decodeCells]
      cases Utf8.decode cell with
      | error n => rfl
      | ok text =>
          dsimp only
          rw [unplaced_map, unplaced_map, ih p p' (k + 1)]

/-- That a source has been begun moves the fault of a row, and changes
nothing else. -/
theorem unplaced_rowOf (s : CsvSource) (r : Csv.Record) :
    unplaced (s.rowOf r) = unplaced r.row :=
  unplaced_decodeCells r.cells _ _ 0

theorem next_records (s : CsvSource) : s.next.2.records = s.records.tail := by
  obtain ⟨name, header, records, fault, begun⟩ := s
  cases records <;> rfl

section
variable {s : CsvSource} (whole : s.fault = none)
include whole

theorem unplaced_next :
    unplaced s.next.1 = unplaced (rowAnswer s.records[0]?) := by
  unfold next
  cases s.records with
  | nil => simp [ending, whole, rowAnswer]
  | cons r rest =>
      show unplaced ((s.rowOf r).map some) = unplaced (r.row.map some)
      rw [unplaced_map, unplaced_map, unplaced_rowOf]

/-- A row leaves the header, and the reading does not come to break off. -/
theorem next_keeps :
    s.next.2.headerRow = s.headerRow ∧ s.next.2.fault = none := by
  obtain ⟨name, header, records, fault, begun⟩ := s
  obtain rfl := whole
  cases records <;> exact ⟨rfl, rfl⟩

theorem readHeader_eq : s.readHeader.2 = { s with begun := true } := by
  rw [readHeader, whole, ite_self]

end

theorem headerRow_ofBytes (name : String) (bytes : List UInt8) :
    (ofBytes name bytes).headerRow
      = headerAnswer name (Csv.records bytes)[0]? := by
  unfold ofBytes ofContents Csv.records
  dsimp only [Option.isNone_none]
  cases hrecords : Csv.recordsOf true bytes with
  | nil => rfl
  | cons first rest =>
      have hcells : first.cells ≠ [] :=
        Csv.cells_ne_nil_of_mem_recordsOf (hrecords ▸ List.mem_cons_self)
      simp [headerRow, headerAnswer, Csv.Record.header, hcells]

theorem records_ofBytes (name : String) (bytes : List UInt8) :
    (ofBytes name bytes).records = (Csv.records bytes).tail := by
  unfold ofBytes ofContents Csv.records
  dsimp only [Option.isNone_none]
  cases Csv.recordsOf true bytes <;> rfl

theorem fault_ofContents (name : String) (c : Contents) :
    (ofContents name c).fault = c.fault := by
  unfold ofContents
  cases Csv.recordsOf c.fault.isNone c.bytes <;> rfl

end CsvSource

/-! ## Sequences of calls -/

section
open RowSource

theorem CsvSource.header_of_answers (calls : List SourceCall) :
    ∀ {s : CsvSource}, s.fault = none →
      ∀ a ∈ (answers s calls).filterMap SourceAnswer.header?,
        a = s.headerRow := by
  induction calls with
  | nil => exact fun _ _ h => absurd h List.not_mem_nil
  | cons call calls ih =>
      intro s whole a ha
      cases call with
      | header =>
          rcases List.mem_cons.mp ha with rfl | ha
          · rfl
          · rw [RowSource.answer] at ha
            exact ih (s := { s with begun := true }) whole a (readHeader_eq whole ▸ ha)
      | row =>
          obtain ⟨hheader, whole⟩ := next_keeps whole
          rw [← hheader]
          exact ih whole a ha

theorem CsvSource.rows_of_answers (calls : List SourceCall) :
    ∀ {s : CsvSource}, s.fault = none →
    ((answers s calls).filterMap SourceAnswer.row?).map unplaced
      = (List.range (calls.count .row)).map fun i =>
        unplaced (rowAnswer s.records[i]?) := by
  induction calls with
  | nil => exact fun _ => rfl
  | cons call calls ih =>
      intro s whole
      cases call with
      | header =>
          have hrest := ih (s := { s with begun := true }) whole
          rw [← readHeader_eq whole] at hrest
          exact hrest
      | row =>
          have hrest := ih (next_keeps whole).2
          simp only [s.next_records, List.getElem?_tail] at hrest
          rw [List.count_cons_self, List.range_succ_eq_map, List.map_cons, List.map_map]
          show unplaced s.next.1 :: _ = _
          rw [unplaced_next whole]
          exact congrArg _ hrest

/-- Asking for the header changes no row, but for the place that a fault
gives.  All answers about the header are alike and tell of the first record;
the rows are those of the other records; and behind the end there is nothing
but the end. -/
theorem header_is_only_observed (name : String) (bytes : List UInt8)
    (calls : List SourceCall) :
    let source := CsvSource.ofBytes name bytes
    let rows : List (Except SourceError (Option Row)) :=
      (answers source calls).filterMap SourceAnswer.row?
    let undisturbed := answers source (List.replicate (calls.count .row) .row)
    rows.map unplaced = (undisturbed.filterMap SourceAnswer.row?).map unplaced ∧
      (∀ a ∈ (answers source calls).filterMap SourceAnswer.header?,
        a = CsvSource.headerAnswer name (Csv.records bytes)[0]?) ∧
      (rows.map unplaced = (List.range (calls.count .row)).map fun i =>
        unplaced (CsvSource.rowAnswer (Csv.records bytes)[i + 1]?)) ∧
      ∀ i j : Nat, i ≤ j → rows[i]? = some (.ok none) →
        ∀ a, rows[j]? = some a → a = .ok none := by
  intro source rows undisturbed
  have whole : source.fault = none := CsvSource.fault_ofContents name ⟨bytes, none⟩
  have hmade : ∀ calls : List SourceCall,
      ((answers source calls).filterMap SourceAnswer.row?).map unplaced
        = (List.range (calls.count .row)).map fun i =>
            unplaced (CsvSource.rowAnswer (Csv.records bytes)[i + 1]?) := by
    intro calls
    have hrows := CsvSource.rows_of_answers calls whole
    simpa only [source, CsvSource.records_ofBytes, List.getElem?_tail] using hrows
  have hat : ∀ (k : Nat) (a : Except SourceError (Option Row)), rows[k]? = some a →
      unplaced a = unplaced (CsvSource.rowAnswer (Csv.records bytes)[k + 1]?) := by
    intro k a ha
    have hk : (rows.map unplaced)[k]? = some (unplaced a) := by
      rw [List.getElem?_map, ha]
      rfl
    rw [hmade calls, List.getElem?_map] at hk
    obtain ⟨i, hi, hik⟩ := Option.map_eq_some_iff.mp hk
    obtain rfl : k = i := by simpa using (List.getElem?_eq_some_iff.mp hi).2
    exact hik.symm
  refine ⟨?_, ?_, hmade calls, ?_⟩
  · rw [hmade calls, hmade, List.count_replicate_self]
  · intro a ha
    rw [CsvSource.header_of_answers calls whole a ha, CsvSource.headerRow_ofBytes]
  · intro i j hij hend a ha
    have hover : (Csv.records bytes)[i + 1]? = none :=
      CsvSource.rowAnswer_eq_end_iff.mp (unplaced_eq_ok_iff.mp (hat i _ hend).symm)
    have hover' : (Csv.records bytes)[j + 1]? = none := by
      rw [List.getElem?_eq_none_iff] at hover ⊢
      omega
    have hrow := hat j a ha
    rw [hover'] at hrow
    exact unplaced_eq_ok_iff.mp hrow

end

/-! ## Files that break off -/

namespace Csv

theorem split_prefix (rest bytes : List UInt8) :
    ∀ {here start : Position} {mode : Mode} {cell : List UInt8}
      {cells : List (List UInt8)},
      split false here start mode cell cells bytes
        <+: split true here start mode cell cells (bytes ++ rest) := by
  induction bytes with
  | nil =>
      intro here start mode cell cells
      cases mode <;> exact List.nil_prefix
  | cons b bytes ih =>
      intro here start mode cell cells
      rw [List.cons_append, split, split]
      dsimp only
      cases step mode b with
      | skip next => exact ih
      | keep next => exact ih
      | endCell => exact ih
      | endRecord => exact (List.prefix_cons_inj _).mpr ih

/-- The records of a beginning are the first ones of the whole text. -/
theorem recordsOf_prefix (bytes rest : List UInt8) :
    recordsOf false bytes <+: records (bytes ++ rest) := by
  unfold records recordsOf
  split
  · exact split_prefix rest _
  next hplain =>
    split
    next whole hwhole =>
      -- A beginning of the byte order mark alone has no record.
      match bytes, hwhole with
      | [], _ => exact List.nil_prefix
      | [_], h => cases h; exact List.nil_prefix
      | [_, _], h => cases h; exact List.nil_prefix
      | _ :: _ :: _ :: bytes, h => cases h; exact absurd rfl (hplain bytes)
    · exact split_prefix rest bytes

end Csv

/-- Of a file that breaks off is read what is read of the whole file, and then
the fault; only a header that is cut off gives way to the fault. -/
theorem CsvSource.broken_reads_beginning (name : String)
    (bytes rest : List UInt8) (fault : IoFault) :
    let broken := ofContents name ⟨bytes, some fault⟩
    let whole := ofBytes name (bytes ++ rest)
    (broken.headerRow = whole.headerRow ∨
        broken.headerRow = .error (.csv (.unreadable fault))) ∧
      ∃ rows, rows <+: whole.stream ∧
        broken.stream = rows ++ [.error (.csv (.unreadable fault))] := by
  intro broken whole
  obtain ⟨others, hrecords⟩ := Csv.recordsOf_prefix bytes rest
  unfold Csv.records at hrecords
  simp only [broken, whole, ofBytes, ofContents, Option.isNone_some, Option.isNone_none]
  rw [← hrecords]
  cases hfirst : Csv.recordsOf false bytes with
  | nil => exact ⟨.inr rfl, [], List.nil_prefix, rfl⟩
  | cons first records =>
      have hcells : first.cells ≠ [] :=
        Csv.cells_ne_nil_of_mem_recordsOf (hfirst ▸ List.mem_cons_self)
      refine ⟨.inl ?_, _, ?_, rfl⟩
      · simp [headerRow, hcells]
      · cases records with
        | nil => exact List.nil_prefix
        | cons r records =>
            simp only [stream, rows, List.cons_append, List.map_append,
              List.append_assoc]
            exact List.prefix_append _ _

end CsvQuery
