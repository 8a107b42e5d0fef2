/-
Encoding a text and decoding it again.

The bytes of a character show by the first of them how many they are: each
length has its own range of first bytes, and the readers of the shorter lengths
refuse the ranges of the longer ones.  What is left is arithmetic on the
number of the character, which the bytes spell in base 64.
-/
import CsvQuery.Text.Utf8

namespace CsvQuery
namespace Utf8

/-! ## Bytes -/

/-- Six bits in a continuation byte. -/
theorem tail_spec (n : Nat) :
    isTail (0x80 + n % 64).toUInt8 = true ∧
    tailBits (0x80 + n % 64).toUInt8 = n % 64 := by
  have hbyte : (0x80 + n % 64).toUInt8.toNat = 0x80 + n % 64 :=
    UInt8.toNat_ofNat_of_lt' (show _ < 256 by omega)
  have hmin : 0x80 ≤ 0x80 + n % 64 := by omega
  have hmax : 0x80 + n % 64 ≤ 0xBF := by omega
  constructor
  · rw [isTail, hbyte, decide_eq_true hmin, decide_eq_true hmax]
    rfl
  · unfold tailBits
    omega

theorem toNat_valid (c : Char) :
    c.toNat < 0xD800 ∨ 0xDFFF < c.toNat ∧ c.toNat < 0x110000 := by
  have hvalid := c.valid
  simp only [UInt32.isValidChar, Nat.isValidChar] at hvalid
  exact hvalid

/-! ## Sequences of each length -/

theorem two?_eq_none {a b : UInt8} (h : 0xE0 ≤ a.toNat) : two? a b = none := by
  have hrange : ¬ a.toNat ≤ 0xDF := by omega
  simp [two?, hrange]

theorem three?_eq_none {a b c : UInt8}
    (h : 0xF0 ≤ a.toNat) : three? a b c = none := by
  have hrange : ¬ a.toNat ≤ 0xEF := by omega
  simp [three?, hrange]

theorem two?_encoded {n : Nat} (hmin : 0x80 ≤ n) (hmax : n < 0x800) :
    two? (0xC0 + n / 64).toUInt8 (0x80 + n % 64).toUInt8
      = some (Char.ofNat n) := by
  have hfirst : (0xC0 + n / 64).toUInt8.toNat = 0xC0 + n / 64 :=
    UInt8.toNat_ofNat_of_lt' (show _ < 256 by omega)
  obtain ⟨htail, hbits⟩ := tail_spec n
  have hrange : 0xC2 ≤ 0xC0 + n / 64 ∧ 0xC0 + n / 64 ≤ 0xDF := by omega
  have hnumber : (0xC0 + n / 64 - 0xC0) * 64 + n % 64 = n := by omega
  rw [two?, hfirst, htail, hbits, hnumber]
  simp [hrange]

theorem three?_encoded {n : Nat} (hmin : 0x800 ≤ n) (hmax : n < 0x10000)
    (hvalid : n < 0xD800 ∨ 0xDFFF < n) :
    three? (0xE0 + n / 4096).toUInt8 (0x80 + n / 64 % 64).toUInt8
      (0x80 + n % 64).toUInt8
      = some (Char.ofNat n) := by
  have hfirst : (0xE0 + n / 4096).toUInt8.toNat = 0xE0 + n / 4096 :=
    UInt8.toNat_ofNat_of_lt' (show _ < 256 by omega)
  obtain ⟨htail, hbits⟩ := tail_spec n
  obtain ⟨htail', hbits'⟩ := tail_spec (n / 64)
  have hrange : 0xE0 ≤ 0xE0 + n / 4096 ∧ 0xE0 + n / 4096 ≤ 0xEF := by omega
  have hnumber : (0xE0 + n / 4096 - 0xE0) * 4096 + n / 64 % 64 * 64 + n % 64 = n := by
    omega
  rw [three?, hfirst, htail, hbits, htail', hbits', hnumber]
  simp [hrange, hmin, hvalid]

theorem four?_encoded {n : Nat} (hmin : 0x10000 ≤ n) (hmax : n < 0x110000) :
    four? (0xF0 + n / 262144).toUInt8 (0x80 + n / 4096 % 64).toUInt8
        (0x80 + n / 64 % 64).toUInt8 (0x80 + n % 64).toUInt8
      = some (Char.ofNat n) := by
  have hfirst : (0xF0 + n / 262144).toUInt8.toNat = 0xF0 + n / 262144 :=
    UInt8.toNat_ofNat_of_lt' (show _ < 256 by omega)
  obtain ⟨htail, hbits⟩ := tail_spec n
  obtain ⟨htail', hbits'⟩ := tail_spec (n / 64)
  obtain ⟨htail'', hbits''⟩ := tail_spec (n / 4096)
  have hrange : 0xF0 ≤ 0xF0 + n / 262144 ∧ 0xF0 + n / 262144 ≤ 0xF4 := by omega
  have hnumber : (0xF0 + n / 262144 - 0xF0) * 262144 + n / 4096 % 64 * 4096 + n / 64 % 64 * 64
      + n % 64 = n := by omega
  have hlast : n ≤ 0x10FFFF := by omega
  rw [four?, hfirst, htail, hbits, htail', hbits', htail'', hbits'', hnumber]
  simp [hrange, hmin, hlast]

section
variable {start : Nat} {done : List Char} {rest : List UInt8} {a b c d : UInt8}
  {x : Char}

theorem decodeFrom_one (ha : a.toNat < 0x80) :
    decodeFrom start done (a :: rest)
      = decodeFrom (start + 1) (Char.ofNat a.toNat :: done) rest := by
  rw [decodeFrom.eq_def]
  exact if_pos ha

theorem decodeFrom_two (ha : ¬ a.toNat < 0x80) (hx : two? a b = some x) :
    decodeFrom start done (a :: b :: rest)
      = decodeFrom (start + 2) (x :: done) rest := by
  rw [decodeFrom.eq_def]
  simp only [if_neg ha, hx]

theorem decodeFrom_three (ha : ¬ a.toNat < 0x80) (h : two? a b = none)
    (hx : three? a b c = some x) :
    decodeFrom start done (a :: b :: c :: rest)
      = decodeFrom (start + 3) (x :: done) rest := by
  rw [decodeFrom.eq_def]
  simp only [if_neg ha, h, hx]

theorem decodeFrom_four (ha : ¬ a.toNat < 0x80) (h : two? a b = none)
    (h' : three? a b c = none) (hx : four? a b c d = some x) :
    decodeFrom start done (a :: b :: c :: d :: rest)
      = decodeFrom (start + 4) (x :: done) rest := by
  rw [decodeFrom.eq_def]
  simp only [if_neg ha, h, h', hx]

end

/-! ## Texts -/

/-- A character is read from its bytes, whatever stands behind them. -/
theorem decodeFrom_encodeChar (c : Char) (start : Nat) (done : List Char)
    (rest : List UInt8) :
    ∃ next, decodeFrom start done (encodeChar c ++ rest)
      = decodeFrom next (c :: done) rest := by
  have hvalid := toNat_valid c
  have hchar : Char.ofNat c.toNat = c := Char.ofNat_toNat c
  rw [encodeChar]
  split
  · next hmax =>
      have hfirst : c.toNat.toUInt8.toNat = c.toNat :=
        UInt8.toNat_ofNat_of_lt' (show _ < 256 by omega)
      have hread : decodeFrom start done (c.toNat.toUInt8 :: rest) = _ :=
        decodeFrom_one (by omega)
      rw [hfirst, hchar] at hread
      exact ⟨_, hread⟩
  · next hmin =>
      split
      · next hmax =>
          have hfirst : (0xC0 + c.toNat / 64).toUInt8.toNat = 0xC0 + c.toNat / 64 :=
            UInt8.toNat_ofNat_of_lt' (show _ < 256 by omega)
          have hread := two?_encoded (Nat.le_of_not_lt hmin) hmax
          rw [hchar] at hread
          exact ⟨_, decodeFrom_two (by omega) hread⟩
      · next hmin =>
          split
          · next hmax =>
              have hfirst : (0xE0 + c.toNat / 4096).toUInt8.toNat = 0xE0 + c.toNat / 4096 :=
                UInt8.toNat_ofNat_of_lt' (show _ < 256 by omega)
              have hread := three?_encoded (Nat.le_of_not_lt hmin) hmax (by omega)
              rw [hchar] at hread
              exact ⟨_, decodeFrom_three (by omega) (two?_eq_none (by omega)) hread⟩
          · next hmin =>
              have hfirst : (0xF0 + c.toNat / 262144).toUInt8.toNat = 0xF0 + c.toNat / 262144 :=
                UInt8.toNat_ofNat_of_lt' (show _ < 256 by omega)
              have hread := four?_encoded (Nat.le_of_not_lt hmin) (by omega)
              rw [hchar] at hread
              exact ⟨_, decodeFrom_four (by omega) (two?_eq_none (by omega))
                (three?_eq_none (by omega)) hread⟩

theorem decodeFrom_encoded :
    ∀ (cs : List Char) (start : Nat) (done : List Char),
    decodeFrom start done (cs.flatMap encodeChar) = .ok (done.reverse ++ cs)
  | [], start, done => by simp [decodeFrom]
  | c :: cs, start, done => by
      obtain ⟨next, hnext⟩ := decodeFrom_encodeChar c start done (cs.flatMap encodeChar)
      rw [List.flatMap_cons, hnext, decodeFrom_encoded cs next (c :: done)]
      simp

theorem decode_encode (s : String) : decode (encode s) = .ok s := by
  rw [decode, encode, decodeFrom_encoded]
  simp [Except.map]

theorem le_toNat_toUInt8 {n : Nat} (hmin : 0x80 ≤ n)
    (hmax : n < 256) : 0x80 ≤ n.toUInt8.toNat := by
  rw [UInt8.toNat_ofNat_of_lt' hmax]
  exact hmin

/-- The bytes of a longer sequence are all 0x80 or more. -/
theorem le_of_mem_encodeChar {c : Char} (h : ¬ c.toNat < 0x80) :
    ∀ b ∈ encodeChar c, 0x80 ≤ b.toNat := by
  have hvalid := toNat_valid c
  intro b hb
  rw [encodeChar, if_neg h] at hb
  split at hb
  · simp only [List.mem_cons, List.not_mem_nil, or_false] at hb
    rcases hb with rfl | rfl <;> exact le_toNat_toUInt8 (by omega) (by omega)
  · split at hb
    · simp only [List.mem_cons, List.not_mem_nil, or_false] at hb
      rcases hb with rfl | rfl | rfl <;> exact le_toNat_toUInt8 (by omega) (by omega)
    · simp only [List.mem_cons, List.not_mem_nil, or_false] at hb
      rcases hb with rfl | rfl | rfl | rfl <;> exact le_toNat_toUInt8 (by omega) (by omega)

/-- A byte below 0x80 stands for itself. -/
theorem toNat_of_mem_encodeChar {c : Char} {b : UInt8} (h : b ∈ encodeChar c)
    (hb : b.toNat < 0x80) : c.toNat = b.toNat := by
  by_cases hc : c.toNat < 0x80
  · rw [encodeChar, if_pos hc] at h
    obtain rfl := List.mem_singleton.mp h
    exact (UInt8.toNat_ofNat_of_lt' (show _ < 256 by omega)).symm
  · exact absurd (le_of_mem_encodeChar hc b h) (Nat.not_le.mpr hb)

/-! ## The bytes of the standard -/

theorem encodeChar_eq (c : Char) : encodeChar c = String.utf8EncodeChar c := by
  have hvalid := toNat_valid c
  have hlast : 0x80 + c.toNat % 64 = c.toNat % 64 + 128 := Nat.add_comm _ _
  have hthird : 0x80 + c.toNat / 64 % 64 = c.toNat / 64 % 64 + 128 := Nat.add_comm _ _
  have hsecond : 0x80 + c.toNat / 4096 % 64 = c.toNat / 4096 % 64 + 128 :=
    Nat.add_comm _ _
  unfold encodeChar String.utf8EncodeChar
  simp only [Char.toNat_val]
  by_cases h1 : c.toNat < 0x80
  · have h1' : c.toNat ≤ 127 := by omega
    rw [if_pos h1, if_pos h1']
  · have h1' : ¬ c.toNat ≤ 127 := by omega
    rw [if_neg h1, if_neg h1']
    by_cases h2 : c.toNat < 0x800
    · have h2' : c.toNat ≤ 2047 := by omega
      have hfirst : 0xC0 + c.toNat / 64 = c.toNat / 64 % 32 + 192 := by omega
      rw [if_pos h2, if_pos h2', hfirst, hlast]
    · have h2' : ¬ c.toNat ≤ 2047 := by omega
      rw [if_neg h2, if_neg h2']
      by_cases h3 : c.toNat < 0x10000
      · have h3' : c.toNat ≤ 65535 := by omega
        have hfirst : 0xE0 + c.toNat / 4096 = c.toNat / 4096 % 16 + 224 := by omega
        rw [if_pos h3, if_pos h3', hfirst, hthird, hlast]
      · have h3' : ¬ c.toNat ≤ 65535 := by omega
        have hfirst : 0xF0 + c.toNat / 262144 = c.toNat / 262144 % 8 + 240 := by omega
        rw [if_neg h3, if_neg h3', hfirst, hsecond, hthird, hlast]

/-- The bytes of a text are those of the standard encoding. -/
theorem encode_eq_toUTF8 (s : String) : encode s = s.toUTF8.data.toList := by
  have hbytes : s.toUTF8 = s.toList.utf8Encode := String.utf8Encode_toList.symm
  have hchars : encodeChar = String.utf8EncodeChar := funext encodeChar_eq
  rw [hbytes, List.utf8Encode, List.data_toByteArray, List.toList_toArray,
    encode, hchars]

end Utf8
end CsvQuery
