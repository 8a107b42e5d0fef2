/-
Tables written as csv text.

A table is written with every cell in double quotes, the quotes inside of it
doubled, and every record ended by a line feed or by a carriage return and a
line feed, which the last one may lack.  Inside of quotes the reader keeps all
bytes but the quote, so no cell can be mistaken for the end of anything
(`cellsFrom_inQuotes`); and behind the closing quote stands a comma or the end
of the record (`Ends`), whichever of its three forms it has.

Where the reader stands is of no interest here: `cellsFrom` is the machine
without it.
-/
import CsvQuery.Proofs.Csv.Reading
import CsvQuery.Proofs.Text.Utf8

namespace CsvQuery
namespace Csv

/-! ## Writing -/

/-- The characters, every quote twice. -/
def doubleQuotes (cs : List Char) : List Char :=
  cs.flatMap fun c => if c = '"' then ['"', '"'] else [c]

theorem doubleQuotes_cons (c : Char) (cs : List Char) :
    doubleQuotes (c :: cs)
      = (if c = '"' then ['"', '"'] else [c]) ++ doubleQuotes cs :=
  List.flatMap_cons

/-- A cell in quotes, with the quotes inside of it doubled. -/
def quoteCell (cell : List Char) : List Char :=
  '"' :: doubleQuotes cell ++ ['"']

/-- The cells of a record with commas between them. -/
def writeRecord (cells : Row) : List Char :=
  [','].intercalate (cells.map fun cell => quoteCell cell.toList)

/-- What ends a record. -/
inductive RecordEnd : List Char → Prop
  | lineFeed : RecordEnd ['\n']
  | carriageReturn : RecordEnd ['\r', '\n']

/-- The text is the table, the last record ended or not. -/
inductive Written : List Row → List Char → Prop
  | nil : Written [] []
  | last {cells : Row} : Written [cells] (writeRecord cells)
  | record {cells : Row} {table : List Row} {ending text : List Char} :
      RecordEnd ending → Written table text →
        Written (cells :: table) (writeRecord cells ++ ending ++ text)

/-! ## The reader without its position -/

/-- The cells of the records that `split` finds. -/
def cellsFrom (mode : Mode) (cell : List UInt8) (cells : List (List UInt8)) :
    List UInt8 → List (List (List UInt8))
  | [] =>
    match mode with
    | .between => []
    | _ => [(cell.reverse :: cells).reverse]
  | b :: rest =>
    match step mode b with
    | .skip next => cellsFrom next cell cells rest
    | .keep next => cellsFrom next (b :: cell) cells rest
    | .endCell => cellsFrom .cell [] (cell.reverse :: cells) rest
    | .endRecord => (cell.reverse :: cells).reverse :: cellsFrom .between [] [] rest

theorem map_cells_split (bytes : List UInt8) :
    ∀ (here start : Position) (mode : Mode)
    (cell : List UInt8) (cells : List (List UInt8)),
    (split true here start mode cell cells bytes).map Record.cells
      = cellsFrom mode cell cells bytes := by
  induction bytes with
  | nil =>
      intro here start mode cell cells
      cases mode <;> rfl
  | cons b bytes ih =>
      intro here start mode cell cells
      rw [split, cellsFrom]
      dsimp only
      cases step mode b with
      | skip next => exact ih _ _ _ _ _
      | keep next => exact ih _ _ _ _ _
      | endCell => exact ih _ _ _ _ _
      | endRecord => exact congrArg _ (ih _ _ _ _ _)

/-- A text that starts with a quote has no byte order mark. -/
theorem map_cells_records (bytes : List UInt8) :
    (records (quote :: bytes)).map Record.cells
      = cellsFrom .between [] [] (quote :: bytes) :=
  map_cells_split _ _ _ _ _ _

/-! ## Reading -/

section
variable {cell : List UInt8} {cells : List (List UInt8)} {rest : List UInt8}

theorem cellsFrom_keeps {bytes : List UInt8} (h : quote ∉ bytes) :
    cellsFrom .quoted cell cells (bytes ++ rest)
      = cellsFrom .quoted (bytes.reverse ++ cell) cells rest := by
  induction bytes generalizing cell with
  | nil => rfl
  | cons b bytes ih =>
      obtain ⟨hb, hbytes⟩ := not_or.mp (mt List.mem_cons.mpr h)
      have hstep : step .quoted b = .keep .quoted := if_neg (Ne.symm hb)
      rw [List.cons_append, cellsFrom, hstep]
      dsimp only
      rw [ih hbytes, List.reverse_cons, List.append_assoc, List.singleton_append]

theorem quote_notMem_encodeChar {c : Char}
    (h : c ≠ '"') : quote ∉ Utf8.encodeChar c := by
  intro hmem
  have hcode : c.toNat = '"'.toNat := Utf8.toNat_of_mem_encodeChar hmem (by decide)
  exact h (by rw [← Char.ofNat_toNat c, hcode, Char.ofNat_toNat])

/-- Inside of quotes a cell is read as it was before its quotes were doubled. -/
theorem cellsFrom_inQuotes (cs : List Char) :
    cellsFrom .quoted cell cells
      ((doubleQuotes cs).flatMap Utf8.encodeChar ++ rest)
      = cellsFrom .quoted ((cs.flatMap Utf8.encodeChar).reverse ++ cell)
        cells rest := by
  induction cs generalizing cell with
  | nil => rfl
  | cons c cs ih =>
      rw [doubleQuotes_cons, List.flatMap_append, List.append_assoc, List.flatMap_cons,
        List.reverse_append, List.append_assoc]
      split
      · next hquote =>
          -- The first of the two closes the cell, and the second opens it
          -- again.
          subst hquote
          exact ih
      · next hquote =>
          rw [List.flatMap_singleton,
            cellsFrom_keeps (quote_notMem_encodeChar hquote), ih]

/-- A cell that begins a record or follows a comma is read up to its closing
quote. -/
theorem cellsFrom_quoteCell {mode : Mode}
    (hmode : mode = .between ∨ mode = .cell) (cs : List Char) :
    cellsFrom mode [] cells ((quoteCell cs).flatMap Utf8.encodeChar ++ rest)
      = cellsFrom .closing (cs.flatMap Utf8.encodeChar).reverse cells rest := by
  have hopen : ∀ bytes, cellsFrom mode [] cells (quote :: bytes)
      = cellsFrom .quoted [] cells bytes := by
    intro bytes
    rcases hmode with rfl | rfl <;> rfl
  have hclose : (quoteCell cs).flatMap Utf8.encodeChar ++ rest
      = quote :: ((doubleQuotes cs).flatMap Utf8.encodeChar ++ quote :: rest) := by
    rw [quoteCell, List.cons_append, List.flatMap_cons, List.flatMap_append, List.append_assoc,
      List.append_assoc]
    rfl
  rw [hclose, hopen, cellsFrom_inQuotes, List.append_nil]
  rfl

/-- Behind a closing quote the record ends, and the reader goes on to
`others`. -/
def Ends (tail : List UInt8) (others : List (List (List UInt8))) : Prop :=
  ∀ cell cells, cellsFrom .closing cell cells tail = (cell.reverse :: cells).reverse :: others

theorem ends_nil : Ends [] [] :=
  fun _ _ => rfl

theorem RecordEnd.ends {ending : List Char} (h : RecordEnd ending)
    (rest : List UInt8) :
    Ends (ending.flatMap Utf8.encodeChar ++ rest)
      (cellsFrom .between [] [] rest) := by
  cases h with
  | lineFeed => exact fun _ _ => rfl
  | carriageReturn => exact fun _ _ => rfl

theorem cellsFrom_writeRecord {tail : List UInt8}
    {others : List (List (List UInt8))} (htail : Ends tail others)
    (texts : Row) : ∀ (mode : Mode) (cells : List (List UInt8)),
    texts ≠ [] → mode = .between ∨ mode = .cell →
      cellsFrom mode [] cells
        ((writeRecord texts).flatMap Utf8.encodeChar ++ tail)
        = (cells.reverse ++ texts.map Utf8.encode) :: others := by
  induction texts with
  | nil => exact fun _ _ h => absurd rfl h
  | cons text texts ih =>
      intro mode cells _ hmode
      cases texts with
      | nil =>
          rw [writeRecord, List.map_singleton, List.intercalate_singleton,
            cellsFrom_quoteCell hmode, htail, List.reverse_cons, List.reverse_reverse]
          rfl
      | cons next texts =>
          have hcomma : (writeRecord (text :: next :: texts)).flatMap Utf8.encodeChar ++ tail
              = (quoteCell text.toList).flatMap Utf8.encodeChar
                ++ comma :: ((writeRecord (next :: texts)).flatMap Utf8.encodeChar ++ tail) := by
            rw [writeRecord, List.map_cons, List.map_cons, List.intercalate_cons_cons,
              List.flatMap_append, List.flatMap_append, List.append_assoc, List.append_assoc]
            rfl
          have hcell : ∀ cell bytes, cellsFrom .closing cell cells (comma :: bytes)
              = cellsFrom .cell [] (cell.reverse :: cells) bytes :=
            fun _ _ => rfl
          rw [hcomma, cellsFrom_quoteCell hmode, hcell, ih _ _ (List.cons_ne_nil _ _) (.inr rfl),
            List.reverse_reverse, List.reverse_cons, List.append_assoc]
          rfl

end

/-- A table is read as it was written. -/
theorem cellsFrom_written {table : List Row} {text : List Char}
    (h : Written table text) (hcells : ∀ row ∈ table, row ≠ []) :
    cellsFrom .between [] [] (text.flatMap Utf8.encodeChar)
      = table.map (List.map Utf8.encode) := by
  induction h with
  | nil => rfl
  | @last cells =>
      have hread := cellsFrom_writeRecord ends_nil cells .between []
        (hcells cells List.mem_cons_self) (.inl rfl)
      rwa [List.append_nil] at hread
  | @record cells table ending text hending _ ih =>
      obtain ⟨hfirst, hothers⟩ := List.forall_mem_cons.mp hcells
      have hread :=
        cellsFrom_writeRecord (hending.ends (text.flatMap Utf8.encodeChar)) cells
        .between [] hfirst (.inl rfl)
      rw [ih hothers] at hread
      rwa [List.flatMap_append, List.flatMap_append, List.append_assoc]

theorem head?_writeRecord {cells : Row} (h : cells ≠ []) :
    (writeRecord cells).head? = some '"' := by
  cases cells with
  | nil => exact absurd rfl h
  | cons cell cells => cases cells <;> rfl

theorem Written.head? {cells : Row} {table : List Row} {text : List Char}
    (h : Written (cells :: table) text)
    (hcells : cells ≠ []) : text.head? = some '"' := by
  cases h with
  | last => exact head?_writeRecord hcells
  | record _ _ => simp [head?_writeRecord hcells]

theorem map_cells_records_written {header : Row} {rows : List Row}
    {text : List Char} (h : Written (header :: rows) text)
    (hheader : header ≠ []) (hrows : ∀ row ∈ rows, row ≠ []) :
    (records (text.flatMap Utf8.encodeChar)).map Record.cells
      = (header :: rows).map (List.map Utf8.encode) := by
  rw [← cellsFrom_written h (List.forall_mem_cons.mpr ⟨hheader, hrows⟩)]
  obtain ⟨text, rfl⟩ := List.head?_eq_some_iff.mp (h.head? hheader)
  exact map_cells_records _

end Csv

/-! ## The written table as a source -/

theorem CsvSource.decodeCells_encode (texts : Row) :
    ∀ (p : Csv.Position) (k : Nat),
    decodeCells p k (texts.map Utf8.encode) = .ok texts := by
  induction texts with
  | nil => exact fun _ _ => rfl
  | cons text texts ih =>
      intro p k
      rw [List.map_cons, decodeCells, Utf8.decode_encode]
      dsimp only
      rw [ih]
      rfl

/-- The two sources have the same header and the same rows left, and all of
these can be read. -/
structure Agree (s : CsvSource) (m : MemorySource) : Prop where
  whole : s.fault = none
  header : s.headerRow = m.readHeader
  rows : s.records.map Csv.Record.cells = m.rows.map (List.map Utf8.encode)

/-- One call is answered alike, and what is left agrees again. -/
theorem Agree.answer {s : CsvSource} {m : MemorySource} (h : Agree s m)
    (call : SourceCall) :
    (RowSource.answer s call).1 = (RowSource.answer m call).1 ∧
      Agree (RowSource.answer s call).2 (RowSource.answer m call).2 := by
  cases call with
  | header =>
      refine ⟨congrArg _ h.header, ?_⟩
      show Agree s.readHeader.2 m
      rw [CsvSource.readHeader_eq h.whole]
      exact ⟨h.whole, h.header, h.rows⟩
  | row =>
      obtain ⟨whole, hheader, hrows⟩ := h
      obtain ⟨name, header, records, fault, begun⟩ := s
      obtain ⟨names, rows⟩ := m
      obtain rfl := whole
      cases rows with
      | nil =>
          obtain rfl := List.map_eq_nil_iff.mp hrows
          exact ⟨rfl, rfl, hheader, rfl⟩
      | cons row rows =>
          obtain ⟨r, records, rfl, hcells, hrest⟩ := List.map_eq_cons_iff.mp hrows
          refine ⟨?_, rfl, hheader, hrest⟩
          show SourceAnswer.row ((CsvSource.decodeCells _ 0 r.cells).map some) = _
          rw [hcells, CsvSource.decodeCells_encode]
          rfl

/-- A table written as csv is read as if it were in memory, its header
trimmed, whatever is asked for in whatever order. -/
theorem written_table_reads_as_in_memory (name : String) {header : Row}
    {rows : List Row} {text : String}
    (written : Csv.Written (header :: rows) text.toList)
    (hheader : header ≠ []) (hrows : ∀ row ∈ rows, row ≠ [])
    (calls : List SourceCall) :
    RowSource.answers (CsvSource.ofBytes name text.toUTF8.data.toList) calls
      = RowSource.answers
        ({ header := header.map Text.trim, rows } : MemorySource) calls := by
  have hbytes : text.toUTF8.data.toList = text.toList.flatMap Utf8.encodeChar :=
    (Utf8.encode_eq_toUTF8 text).symm
  obtain ⟨first, others, hrecords, hfirst, hothers⟩ :=
    List.map_eq_cons_iff.mp (Csv.map_cells_records_written written hheader hrows)
  have hagree : Agree (CsvSource.ofBytes name text.toUTF8.data.toList)
      { header := header.map Text.trim, rows } := by
    rw [hbytes]
    refine ⟨CsvSource.fault_ofContents _ _, ?_, ?_⟩
    · rw [CsvSource.headerRow_ofBytes, hrecords]
      simp [CsvSource.headerAnswer, Csv.Record.header, MemorySource.readHeader, hfirst, hheader,
        CsvSource.decodeCells_encode, Except.map]
    · rw [CsvSource.records_ofBytes, hrecords]
      exact hothers
  exact RowSource.answers_eq (fun _ _ call h => h.answer call) hagree calls

/-- Rows shorter and longer than the header, one of them a single empty cell;
cells with blanks, commas, quotes and line ends; both endings and none. -/
theorem ragged_table_reads_as_in_memory :
    let header := [" a ", "b\"\n,"]
    let rows : List Row := [["x\r\n"], [""], ["1", "2", " 3 "]]
    let text := "\" a \",\"b\"\"\n,\"\r\n\"x\r\n\"\n\"\"\r\n\"1\",\"2\",\" 3 \""
    Csv.Written (header :: rows) text.toList ∧
      RowSource.answers (CsvSource.ofBytes "t.csv" text.toUTF8.data.toList)
          [.row, .header, .row, .row, .row, .header, .row]
        = [.row (.ok (some ["x\r\n"])), .header (.ok ["a", "b\"\n,"]), .row (.ok (some [""])),
            .row (.ok (some ["1", "2", " 3 "])), .row (.ok none), .header (.ok ["a", "b\"\n,"]),
            .row (.ok none)] := by
  intro header rows text
  have htext : Csv.writeRecord header ++ ['\r', '\n'] ++ (Csv.writeRecord ["x\r\n"] ++ ['\n']
      ++ (Csv.writeRecord [""] ++ ['\r', '\n'] ++ Csv.writeRecord ["1", "2", " 3 "]))
      = text.toList := by
    decide
  have hwritten : Csv.Written (header :: rows) text.toList := by
    rw [← htext]
    exact .record .carriageReturn (.record .lineFeed (.record .carriageReturn .last))
  refine ⟨hwritten, ?_⟩
  rw [written_table_reads_as_in_memory "t.csv" hwritten (by decide) (by decide)]
  rfl

end CsvQuery
