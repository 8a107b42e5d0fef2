/-
The text of a configuration.

A configuration is written as a document of plain entries, the number of rows
only where there is one, and that document is read as the configuration again
if both numbers are small enough for it (`read?_text`).
-/
import CsvQuery.Config
import CsvQuery.Proofs.Toml.Values

namespace CsvQuery.Config

/-- The entries of the file. -/
def entries (c : Config) : List Toml.Entry :=
  let count (key : String) (n : Nat) : Toml.Entry :=
    ⟨key.toList, (toString n).toList, .integer n⟩
  [⟨formatKey.toList, Toml.doubleQuote :: (c.format.word.toList ++ [Toml.doubleQuote]),
      .text c.format.word⟩,
    ⟨coloredKey.toList, (if c.colored then "true" else "false").toList, .boolean c.colored⟩,
    count timeoutKey c.timeout] ++ c.maxRows.toList.map (count maxRowsKey)

theorem fits_iff {c : Config} :
    c.fits = true ↔ c.timeout < tooLarge ∧ ∀ n ∈ c.maxRows, n < tooLarge := by
  obtain ⟨format, colored, timeout, maxRows⟩ := c
  cases maxRows <;> simp [fits]

theorem text_eq_document (c : Config) :
    c.text = String.ofList (Toml.document c.entries) := by
  obtain ⟨format, colored, timeout, maxRows⟩ := c
  rw [← String.toList_inj, String.toList_ofList]
  cases maxRows with
  | none =>
      simp [text, entryLine, entries, Toml.document, Toml.Entry.line, Toml.doubleQuote]
  | some n =>
      simp [text, entryLine, entries, Toml.document, Toml.Entry.line, Toml.doubleQuote]

/-- The names of all entries. -/
def keys : List String := [formatKey, coloredKey, timeoutKey, maxRowsKey]

theorem isBare_of_mem_keys {key : String}
    (h : key ∈ keys) : Toml.IsBare key.toList := by
  have hall : (keys.all fun key => !key.toList.isEmpty && key.toList.all Toml.isKeyChar) = true :=
    rfl
  have hkey := List.all_eq_true.mp hall key h
  simp only [Bool.and_eq_true, Bool.not_eq_true', List.isEmpty_eq_false_iff] at hkey
  exact ⟨hkey.1, List.all_eq_true.mp hkey.2⟩

theorem plain_entries {c : Config}
    (h : c.fits = true) : ∀ e ∈ c.entries, e.Plain := by
  obtain ⟨htimeout, hmaxRows⟩ := fits_iff.mp h
  have hformat : ∀ ch ∈ c.format.word.toList,
      Toml.isPrintable ch = true ∧ ch ≠ Toml.doubleQuote ∧ ch ≠ '\\' := by
    intro ch hch
    have hall : (c.format.word.toList.all fun ch =>
        Toml.isPrintable ch && ch != Toml.doubleQuote && ch != '\\') = true := by
      cases c.format <;> rfl
    simpa [and_assoc] using List.all_eq_true.mp hall ch hch
  have hword : c.format.word.toList ≠ [] := by
    cases c.format <;> decide
  have htext := Toml.spells_text hword hformat
  rw [String.ofList_toList] at htext
  intro e he
  simp only [entries, List.mem_append, List.mem_cons, List.not_mem_nil, or_false, List.mem_map,
    Option.mem_toList] at he
  rcases he with (rfl | rfl | rfl) | ⟨n, hn, rfl⟩
  · exact ⟨isBare_of_mem_keys (by decide), htext⟩
  · exact ⟨isBare_of_mem_keys (by decide), Toml.spells_boolean c.colored⟩
  · exact ⟨isBare_of_mem_keys (by decide), Toml.spells_integer htimeout⟩
  · exact ⟨isBare_of_mem_keys (by decide), Toml.spells_integer (hmaxRows n hn)⟩

theorem ofEntries_entries (c : Config) :
    ofEntries (c.entries.map fun e => (e.name, e.value)) = some c := by
  obtain ⟨format, colored, timeout, maxRows⟩ := c
  have hformat : formatOf? (.text format.word) = some format := by
    cases format <;> decide
  have hcount (n : Nat) : countOf? (.integer n) = some n := rfl
  cases maxRows with
  | none =>
      simp [ofEntries, entries, field, Toml.Entry.name, hformat, flagOf?, hcount, standard,
        Settings.standard, List.lookup_cons, formatKey, coloredKey, timeoutKey, maxRowsKey]
  | some n =>
      simp [ofEntries, entries, field, Toml.Entry.name, hformat, flagOf?, hcount,
        List.lookup_cons, formatKey, coloredKey, timeoutKey, maxRowsKey]

/-- A configuration that fits is read again. -/
theorem read?_text {c : Config}
    (h : c.fits = true) : read? c.text = some c := by
  have nodup : (c.entries.map Toml.Entry.name).Nodup := by
    obtain ⟨format, colored, timeout, maxRows⟩ := c
    cases maxRows <;> simp [entries, Toml.Entry.name, formatKey, coloredKey, timeoutKey, maxRowsKey]
  rw [read?, text_eq_document, Toml.read?_document (plain_entries h) nodup]
  exact ofEntries_entries c

end CsvQuery.Config
