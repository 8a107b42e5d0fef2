/-
Characters that no number contains.

A character that is no blank, no digit, no sign, no point and no letter of an
exponent or of one of the names makes a text no number, wherever it stands.
`Foreign` collects what has to be known of it; the quote mark is foreign.
-/
import CsvQuery.Number.Binary64
import CsvQuery.Token

namespace CsvQuery

/-- The character is in no number. -/
structure Foreign (c : Char) : Prop where
  notBlank : Text.isBlank c = false
  notDigit : c.isDigit = false
  notMark : c ∉ ['+', '-', '.']
  notLetter : c.toLower ∉ ['n', 'a', 'i', 'f', 't', 'y', 'e']

theorem foreign_quoteMark : Foreign Token.quoteMark :=
  ⟨by decide, by decide, by decide, by decide⟩

section
variable {c : Char} {cs : List Char}

/-! ## Cutting and trimming -/

theorem mem_dropWhile_of_false {p : Char → Bool} (h : c ∈ cs)
    (hp : p c = false) :
    c ∈ cs.dropWhile p := by
  rw [← cs.takeWhile_append_dropWhile (p := p), List.mem_append] at h
  refine h.resolve_left fun htake => ?_
  rw [List.all_eq_true.mp List.all_takeWhile c htake] at hp
  cases hp

theorem mem_trimChars_of_not_blank (h : c ∈ cs)
    (hblank : Text.isBlank c = false) :
    c ∈ Text.trimChars cs := by
  unfold Text.trimChars Text.dropTail
  rw [List.mem_reverse]
  exact mem_dropWhile_of_false (List.mem_reverse.mpr (mem_dropWhile_of_false h hblank)) hblank

namespace Foreign

/-! ## Whole numbers -/

theorem digits?_eq_none (hc : Foreign c)
    (h : c ∈ cs) : Integer.digits? cs = none := by
  have hall : cs.all Char.isDigit = false := by
    rw [List.all_eq_false]
    exact ⟨c, h, by simp [hc.notDigit]⟩
  simp [Integer.digits?, hall]

/-- A sign in front is not the foreign character. -/
theorem mem_of_mem_cons {sign : Char} (hc : Foreign c) (h : c ∈ sign :: cs)
    (hsign : sign ∈ ['+', '-', '.']) : c ∈ cs := by
  rcases List.mem_cons.mp h with rfl | h
  · exact absurd hsign hc.notMark
  · exact h

theorem signed?_eq_none (hc : Foreign c)
    (h : c ∈ cs) : Integer.signed? cs = none := by
  unfold Integer.signed?
  split
  · rw [hc.digits?_eq_none (hc.mem_of_mem_cons h (by decide))]
    rfl
  · rw [hc.digits?_eq_none (hc.mem_of_mem_cons h (by decide))]
    rfl
  · rw [hc.digits?_eq_none h]
    rfl

theorem unsigned?_eq_none (hc : Foreign c)
    (h : c ∈ cs) : Integer.unsigned? cs = none := by
  unfold Integer.unsigned?
  split
  · rw [hc.digits?_eq_none (hc.mem_of_mem_cons h (by decide))]
    rfl
  · rw [hc.digits?_eq_none h]
    rfl

/-! ## Decimals -/

theorem exponent?_eq_none (hc : Foreign c)
    (h : c ∈ cs) : Binary64.exponent? cs = none := by
  unfold Binary64.exponent?
  split
  · cases h
  · next e rest =>
      split
      · next he =>
          have hrest : c ∈ rest := by
            rcases List.mem_cons.mp h with rfl | h
            · exact absurd (by rw [he]; decide) hc.notLetter
            · exact h
          split
          · rw [hc.digits?_eq_none (hc.mem_of_mem_cons hrest (by decide))]
            rfl
          · rw [hc.digits?_eq_none (hc.mem_of_mem_cons hrest (by decide))]
            rfl
          · rw [hc.digits?_eq_none hrest]
            rfl
      · rfl

theorem mem_fraction (hc : Foreign c)
    (h : c ∈ cs) : c ∈ (Binary64.fraction cs).2 := by
  unfold Binary64.fraction
  split
  · exact mem_dropWhile_of_false (hc.mem_of_mem_cons h (by decide)) hc.notDigit
  · exact h

theorem decimalRank?_eq_none (hc : Foreign c) (h : c ∈ cs) :
    Binary64.decimalRank? cs = none := by
  have hrest := hc.mem_fraction (mem_dropWhile_of_false h hc.notDigit)
  simp [Binary64.decimalRank?, hc.exponent?_eq_none hrest]

theorem unsignedDecimal?_eq_none (hc : Foreign c)
    (h : c ∈ cs) : Binary64.unsigned? cs = none := by
  have hlower : c.toLower ∈ cs.map Char.toLower := List.mem_map_of_mem h
  -- The letters of the names are not foreign.
  have hname : ∀ name : List Char, (∀ l ∈ name, l ∈ ['n', 'a', 'i', 'f', 't', 'y', 'e']) →
      cs.map Char.toLower ≠ name := by
    rintro name hname rfl
    exact hc.notLetter (hname _ hlower)
  unfold Binary64.unsigned?
  simp [hname ['n', 'a', 'n'] (by simp), hname ['i', 'n', 'f'] (by simp),
    hname ['i', 'n', 'f', 'i', 'n', 'i', 't', 'y'] (by simp), hc.decimalRank?_eq_none h]

theorem ofChars?_eq_none (hc : Foreign c)
    (h : c ∈ cs) : Binary64.ofChars? cs = none := by
  unfold Binary64.ofChars?
  split
  · rw [hc.unsignedDecimal?_eq_none (hc.mem_of_mem_cons h (by decide))]
    rfl
  · exact hc.unsignedDecimal?_eq_none (hc.mem_of_mem_cons h (by decide))
  · exact hc.unsignedDecimal?_eq_none h

end Foreign
end

/-! ## Texts -/

theorem Foreign.readInteger?_eq_none {c : Char} {s : String} (hc : Foreign c)
    (h : c ∈ s.toList) :
    Integer.read? s = none :=
  hc.signed?_eq_none (mem_trimChars_of_not_blank h hc.notBlank)

theorem Foreign.readCount?_eq_none {c : Char} {s : String} (hc : Foreign c)
    (h : c ∈ s.toList) :
    Integer.readCount? s = none :=
  hc.unsigned?_eq_none h

theorem Foreign.readDecimal?_eq_none {c : Char} {s : String} (hc : Foreign c)
    (h : c ∈ s.toList) :
    Binary64.read? s = none :=
  hc.ofChars?_eq_none (mem_trimChars_of_not_blank h hc.notBlank)

end CsvQuery
