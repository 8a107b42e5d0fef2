/-
Documents of plain entries.

A document of lines `key = value`, with keys that need no quotes, is read as
just these entries if no key comes twice (`read?_document`).  All that has to
be known of the values is what they spell up to the end of their line
(`Spells`).
-/
import CsvQuery.Toml.Document

namespace CsvQuery.Toml

/-! ## Keys -/

/-- The characters that mean something in front of a line. -/
def lineMarks :
    List Char := ['\x22', '\x27', '\r', '\n', '#', '[', ' ', '\t', '\uFEFF']

theorem notMem_of_all_not {p : Char → Bool} {marks : List Char}
    (hnone : (marks.all fun d => !p d) = true) {c : Char}
    (h : p c = true) : c ∉ marks := by
  intro hc
  have hnot := List.all_eq_true.mp hnone c hc
  rw [h] at hnot
  cases hnot

theorem notMem_lineMarks {c : Char} (h : isKeyChar c = true) : c ∉ lineMarks :=
  notMem_of_all_not (by decide) h

section
variable {c : Char} (h : c ∉ lineMarks) (cs : List Char)
include h

theorem skipBlanks_cons : skipBlanks (c :: cs) = c :: cs := by
  simp only [lineMarks, List.mem_cons, List.not_mem_nil, or_false, not_or] at h
  obtain ⟨-, -, -, -, -, -, hspace, htab, -⟩ := h
  simp [skipBlanks, isBlank, hspace, htab]

theorem skipLines_cons : skipLines false (c :: cs) = c :: cs := by
  simp only [lineMarks, List.mem_cons, List.not_mem_nil, or_false, not_or] at h
  obtain ⟨-, -, hreturn, hfeed, hcomment, -, hspace, htab, -⟩ := h
  unfold skipLines
  split
  next heq => cases heq
  next heq => exact absurd (List.cons.inj heq).1 hreturn
  next heq =>
    obtain ⟨rfl, rfl⟩ := List.cons.inj heq
    simp [isBlank, hfeed, hcomment, hspace, htab]

theorem keyPart?_cons : keyPart? (c :: cs)
    = if ((c :: cs).takeWhile isKeyChar).isEmpty then none
      else some (String.ofList ((c :: cs).takeWhile isKeyChar),
        (c :: cs).dropWhile isKeyChar) := by
  simp only [lineMarks, List.mem_cons, List.not_mem_nil, or_false, not_or] at h
  obtain ⟨hdouble, hsingle, -⟩ := h
  unfold keyPart?
  split
  next heq => exact absurd (List.cons.inj heq).1 hdouble
  next heq => exact absurd (List.cons.inj heq).1 hsingle
  next => rfl

theorem line?_cons : line? (c :: cs)
      = (pair (value maxDepth) (c :: cs)).map fun ((key, v), rest) =>
        (.pair key v, rest) := by
  simp only [lineMarks, List.mem_cons, List.not_mem_nil, or_false, not_or] at h
  obtain ⟨-, -, -, -, -, hbracket, -⟩ := h
  unfold line?
  split
  next heq => exact absurd (List.cons.inj heq).1 hbracket
  next => rfl

end

/-- A key that needs no quotes. -/
structure IsBare (key : List Char) : Prop where
  ne_nil : key ≠ []
  all : ∀ c ∈ key, isKeyChar c = true

theorem IsBare.key? {key : List Char} (h : IsBare key) (parts : Nat)
    (rest : List Char) :
    key? (parts + 1) (key ++ ' ' :: '=' :: rest)
      = some ({ path := [], last := String.ofList key }, '=' :: rest) := by
  have htake : (key ++ ' ' :: '=' :: rest).takeWhile isKeyChar = key := by
    rw [List.takeWhile_append_of_pos h.all, List.takeWhile_cons_of_neg (by decide),
      List.append_nil]
  have hdrop : (key ++ ' ' :: '=' :: rest).dropWhile isKeyChar = ' ' :: '=' :: rest := by
    rw [List.dropWhile_append_of_pos h.all, List.dropWhile_cons_of_neg (by decide)]
  obtain ⟨c, cs, rfl⟩ := List.exists_cons_of_ne_nil h.ne_nil
  have hc := notMem_lineMarks (h.all c List.mem_cons_self)
  have hpart : keyPart? (c :: cs ++ ' ' :: '=' :: rest)
      = some (String.ofList (c :: cs), ' ' :: '=' :: rest) := by
    rw [List.cons_append] at htake hdrop ⊢
    rw [keyPart?_cons hc, htake, hdrop]
    rfl
  have hblanks : skipBlanks (' ' :: '=' :: rest) = '=' :: rest := rfl
  have hfront : skipBlanks (c :: cs ++ ' ' :: '=' :: rest) = c :: cs ++ ' ' :: '=' :: rest :=
    skipBlanks_cons hc _
  rw [Toml.key?, hfront, hpart]
  simp only [bind, Option.bind, hblanks]
  rfl

/-! ## Lines -/

/-- In front of a line end the characters are a value. -/
structure Spells (text : List Char) (v : Value) : Prop where
  front : ∀ rest, skipBlanks (text ++ rest) = text ++ rest
  value : ∀ rest, value maxDepth (text ++ '\n' :: rest) = some (v, '\n' :: rest)

/-- An entry that is written on a line. -/
structure Entry where
  key : List Char
  text : List Char
  value : Value

namespace Entry

structure Plain (e : Entry) : Prop where
  key : IsBare e.key
  value : Spells e.text e.value

/-- The line of an entry. -/
def line (e : Entry) : List Char :=
  e.key ++ ' ' :: '=' :: ' ' :: (e.text ++ ['\n'])

def name (e : Entry) : String := String.ofList e.key

theorem Plain.line? {e : Entry} (h : e.Plain) (rest : List Char) :
    line? (e.line ++ rest)
      = some (.pair { path := [], last := e.name } e.value,
        '\n' :: rest) := by
  have hpair : pair (Toml.value maxDepth) (e.line ++ rest)
      = some (({ path := [], last := e.name }, e.value), '\n' :: rest) := by
    have hblanks : skipBlanks (' ' :: (e.text ++ '\n' :: rest)) = e.text ++ '\n' :: rest :=
      h.value.front _
    have hline : e.line ++ rest = e.key ++ ' ' :: '=' :: ' ' :: (e.text ++ '\n' :: rest) := by
      simp [line]
    rw [pair, hline, maxDepth, h.key.key?]
    simp only [bind, Option.bind, hblanks]
    rw [← maxDepth, h.value.value]
    rfl
  obtain ⟨c, cs, hcs⟩ := List.exists_cons_of_ne_nil h.key.ne_nil
  have hc := notMem_lineMarks (h.key.all c (by simp [hcs]))
  rw [line, hcs, List.cons_append, List.cons_append] at hpair ⊢
  rw [line?_cons hc, hpair]
  rfl

/-- The entry as it is read. -/
def pair (e : Entry) :
    Entries.Key × Value := ({ path := [], last := e.name }, e.value)

/-- Behind the line of an entry the next lines are read. -/
theorem Plain.lines {e : Entry} (h : e.Plain) (fuel : Nat) (rest : List Char) :
    lines (fuel + 1) (e.line ++ rest)
      = (lines fuel rest).map (.pair e.pair.1 e.value :: ·) := by
  have hfront : skipLines false (e.line ++ rest) = e.line ++ rest := by
    obtain ⟨c, cs, hcs⟩ := List.exists_cons_of_ne_nil h.key.ne_nil
    rw [line, hcs]
    exact skipLines_cons (notMem_lineMarks (h.key.all c (by simp [hcs]))) _
  have hend : lineEnd? ('\n' :: rest) = some rest := rfl
  rw [Toml.lines, hfront]
  split
  next hnil => simp [line] at hnil
  next =>
    rw [h.line?]
    simp only [bind, Option.bind, hend]
    cases Toml.lines fuel rest <;> rfl

end Entry

/-! ## Documents -/

/-- The text of entries on lines of their own. -/
def document (entries : List Entry) : List Char :=
  entries.flatMap Entry.line

theorem length_le_document (entries : List Entry) :
    entries.length ≤ (document entries).length := by
  induction entries with
  | nil => exact Nat.le_refl 0
  | cons e entries ih =>
      have hline : 1 ≤ e.line.length := by
        rw [Entry.line, List.length_append, List.length_cons]
        omega
      rw [document, List.flatMap_cons, List.length_append, ← document, List.length_cons]
      omega

theorem lines_document {entries : List Entry} (plain : ∀ e ∈ entries, e.Plain)
    {fuel : Nat} (hfuel : entries.length < fuel) :
    lines fuel (document entries)
      = some (entries.map fun e => .pair e.pair.1 e.value) := by
  induction entries generalizing fuel with
  | nil =>
      obtain ⟨fuel, rfl⟩ := Nat.exists_eq_add_one.mpr hfuel
      rfl
  | cons e entries ih =>
      obtain ⟨fuel, rfl⟩ := Nat.exists_eq_add_one.mpr (Nat.zero_lt_of_lt hfuel)
      obtain ⟨he, hentries⟩ := List.forall_mem_cons.mp plain
      have hrest := ih hentries (Nat.lt_of_succ_lt_succ hfuel)
      rw [document, List.flatMap_cons, he.lines, ← document, hrest]
      rfl

theorem sections_pairs (entries : List Entry) :
    sections (entries.map fun e => .pair e.pair.1 e.value)
      = (entries.map Entry.pair, []) := by
  induction entries with
  | nil => rfl
  | cons e entries ih => rw [List.map_cons, sections, ih, List.map_cons, Entry.pair]

/-- Keys that are new, each of them once, are added one behind the other. -/
theorem addKeys_pairs {entries : List Entry} : ∀ {found : Entries},
    (entries.map Entry.name).Nodup →
    (∀ e ∈ entries, found.lookup e.name = none) →
      Entries.addKeys .defined found (entries.map Entry.pair)
        = some (found ++ entries.map fun e => (e.name, e.value)) := by
  induction entries with
  | nil =>
      intro found _ _
      rw [List.map_nil, List.map_nil, List.append_nil]
      rfl
  | cons e entries ih =>
      intro found nodup new
      obtain ⟨hfresh, hnodup⟩ := List.nodup_cons.mp nodup
      obtain ⟨he, hentries⟩ := List.forall_mem_cons.mp new
      have hadd : Entries.addKey .defined found e.pair = some (found ++ [(e.name, e.value)]) := by
        simp [Entries.addKey, Entries.descend, Entries.add, Entry.pair, he]
      have hnew : ∀ f ∈ entries, (found ++ [(e.name, e.value)]).lookup f.name = none := by
        intro f hf
        have hne : f.name ≠ e.name := fun heq => hfresh (heq ▸ List.mem_map_of_mem hf)
        rw [List.lookup_append, hentries f hf]
        simp [hne]
      have hrest := ih hnodup hnew
      rw [Entries.addKeys, List.map_cons, List.foldlM_cons, hadd]
      simpa [Entries.addKeys] using hrest

/-- Entries that are written on lines of their own are read again. -/
theorem read?_document {entries : List Entry} (plain : ∀ e ∈ entries, e.Plain)
    (nodup : (entries.map Entry.name).Nodup) :
    read? (String.ofList (document entries))
      = some (entries.map fun e => (e.name, e.value)) := by
  have hmark : ∀ cs, document entries ≠ '\uFEFF' :: cs := by
    intro rest heq
    cases entries with
    | nil => cases heq
    | cons e entries =>
        have he := (List.forall_mem_cons.mp plain).1
        obtain ⟨c, cs, hcs⟩ := List.exists_cons_of_ne_nil he.key.ne_nil
        have hc := notMem_lineMarks (he.key.all c (by simp [hcs]))
        rw [document, List.flatMap_cons, Entry.line, hcs] at heq
        obtain rfl := (List.cons.inj heq).1
        exact hc (by decide)
  have hlines := lines_document plain (Nat.lt_succ_of_le (length_le_document entries))
  have hentries : entriesOf (entries.map fun e => .pair e.pair.1 e.value)
      = some (entries.map fun e => (e.name, e.value)) := by
    rw [entriesOf, sections_pairs, addKeys_pairs nodup fun _ _ => rfl]
    rfl
  rw [read?, String.toList_ofList]
  split
  next heq => exact absurd heq (hmark _)
  next =>
    rw [hlines]
    exact hentries

end CsvQuery.Toml
