/-
Whole numbers among the doubles.

Every text of a whole number is also the text of a double, the one nearest to
it.  Going over to the double keeps the order: within a binade rounding does,
and a binade ends, its last double rounded up included, where the next one
starts (`binade_bounds`).  It keeps no more than that, as beyond 2^53 several
whole numbers share a double.
-/
import CsvQuery.Number.Binary64
import Mathlib.Data.List.TakeWhile
import Mathlib.Data.Nat.Log
import Mathlib.Tactic.Ring

namespace CsvQuery

/-! ## Runs of digits -/

namespace Integer

theorem digits?_eq_some_iff {cs : List Char} {n : Nat} :
    digits? cs = some n ↔
      cs ≠ [] ∧ (∀ c ∈ cs, c.isDigit) ∧ digitsValue 0 cs = n := by
  unfold digits?
  cases cs with
  | nil => simp
  | cons c cs => simp [and_assoc]

theorem digitsValue_cons (n : Nat) (c : Char) (cs : List Char) :
    digitsValue n (c :: cs) = digitsValue (10 * n + digitValue c) cs := by
  rw [digitsValue, List.foldl_cons, ← digitsValue]

/-- Digits behind a number make it that many times ten times as large. -/
theorem le_digitsValue :
    ∀ (cs : List Char) (n : Nat), n * 10 ^ cs.length ≤ digitsValue n cs
  | [], n => by simp [digitsValue]
  | c :: cs, n => by
      have ih := le_digitsValue cs (10 * n + digitValue c)
      rw [digitsValue_cons]
      refine le_trans ?_ ih
      calc n * 10 ^ (c :: cs).length
          = 10 * n * 10 ^ cs.length := by rw [List.length_cons, pow_succ]; ring
        _ ≤ (10 * n + digitValue c) * 10 ^ cs.length :=
          Nat.mul_le_mul_right _ (Nat.le_add_right _ _)

/-- Leading zeros add nothing. -/
theorem digitsValue_dropZeros : ∀ cs : List Char,
    digitsValue 0 (cs.dropWhile (· == '0')) = digitsValue 0 cs
  | [] => rfl
  | c :: cs => by
      by_cases hc : c = '0'
      · subst hc
        exact digitsValue_dropZeros cs
      · rw [List.dropWhile_cons_of_neg (by simpa using hc)]

theorem digitValue_pos {c : Char} (hdigit : c.isDigit)
    (hc : c ≠ '0') : 0 < digitValue c := by
  have hlow : 48 ≤ c.toNat := by
    simp only [Char.isDigit, Bool.and_eq_true, decide_eq_true_eq] at hdigit
    exact hdigit.1
  have hne : c.toNat ≠ 48 := fun h => hc (Char.toNat_inj.mp h)
  unfold digitValue
  omega

end Integer

namespace Binary64

/-! ## Rounding a quotient -/

theorem roundQuotient_mul (n : Nat) {den : Nat} (hden : 0 < den) :
    roundQuotient (n * den) den = n := by
  simp [roundQuotient, Nat.mul_div_cancel _ hden, hden]

theorem le_roundQuotient (num den : Nat) :
    num / den ≤ roundQuotient num den := by
  unfold roundQuotient
  dsimp only
  split_ifs <;> omega

theorem roundQuotient_le (num den : Nat) :
    roundQuotient num den ≤ num / den + 1 := by
  unfold roundQuotient
  dsimp only
  split_ifs <;> omega

theorem roundQuotient_mono {a b : Nat} (den : Nat) (h : a ≤ b) :
    roundQuotient a den ≤ roundQuotient b den := by
  rcases Nat.lt_or_eq_of_le (Nat.div_le_div_right (c := den) h) with hlt | heq
  · calc roundQuotient a den
        ≤ a / den + 1 := roundQuotient_le a den
      _ ≤ b / den := hlt
      _ ≤ roundQuotient b den := le_roundQuotient b den
  · have hrest : a % den ≤ b % den := by
      have ha := Nat.div_add_mod a den
      have hb := Nat.div_add_mod b den
      rw [heq] at ha
      omega
    unfold roundQuotient
    rw [heq]
    dsimp only
    split_ifs <;> omega

/-! ## The double nearest to a whole number -/

theorem binaryExponent_one {n : Nat}
    (hn : n ≠ 0) : binaryExponent n 1 = n.log2 := by
  have hreaches : reaches n 1 n.log2 = true := by
    simp [reaches, Nat.shiftLeft_eq, Nat.log2_self_le hn]
  have hone : (Nat.log2 1 : Int) = 0 := by decide
  unfold binaryExponent
  rw [hone, sub_zero, if_pos hreaches]

/-- Where the double nearest to `n` stands among the doubles, were there none
too large. -/
def unboundedRank (n : Nat) : Nat :=
  (n.log2 + 1022) * 2 ^ 52 + roundQuotient (n * 2 ^ 1074) (2 ^ (n.log2 + 1022))

theorem rankOfRatio_one {n : Nat} (hn : n ≠ 0) :
    rankOfRatio n 1 = min (unboundedRank n) infinityRank := by
  have hunit : (binaryExponent n 1 - 52 + 1074).toNat = n.log2 + 1022 := by
    rw [binaryExponent_one hn]
    omega
  have hshift : ∀ a k : Nat, a <<< k = a * 2 ^ k := Nat.shiftLeft_eq
  unfold rankOfRatio unboundedRank
  rw [if_neg hn, hunit]
  show min ((n.log2 + 1022) <<< 52 + roundQuotient (n <<< 1074) (1 <<< (n.log2 + 1022)))
    infinityRank = _
  rw [hshift, hshift, hshift, one_mul]

/-- A binade has 2^52 doubles, and the rounded number may be the first one
behind it. -/
theorem binade_bounds {n : Nat} (hn : n ≠ 0) :
    (n.log2 + 1023) * 2 ^ 52 ≤ unboundedRank n ∧
    unboundedRank n ≤ (n.log2 + 1024) * 2 ^ 52 := by
  have hden : 0 < 2 ^ (n.log2 + 1022) := Nat.two_pow_pos _
  have hlow : 2 ^ 52 ≤ roundQuotient (n * 2 ^ 1074) (2 ^ (n.log2 + 1022)) := by
    calc 2 ^ 52
        = roundQuotient (2 ^ 52 * 2 ^ (n.log2 + 1022)) (2 ^ (n.log2 + 1022)) :=
          (roundQuotient_mul _ hden).symm
      _ ≤ roundQuotient (n * 2 ^ 1074) (2 ^ (n.log2 + 1022)) := by
          refine roundQuotient_mono _ ?_
          rw [← pow_add, show 52 + (n.log2 + 1022) = n.log2 + 1074 by omega, pow_add]
          exact Nat.mul_le_mul_right _ (Nat.log2_self_le hn)
  have hhigh : roundQuotient (n * 2 ^ 1074) (2 ^ (n.log2 + 1022)) ≤ 2 ^ 53 := by
    calc roundQuotient (n * 2 ^ 1074) (2 ^ (n.log2 + 1022))
        ≤ roundQuotient (2 ^ 53 * 2 ^ (n.log2 + 1022)) (2 ^ (n.log2 + 1022)) := by
          refine roundQuotient_mono _ ?_
          rw [← pow_add, show 53 + (n.log2 + 1022) = n.log2 + 1 + 1074 by omega,
            pow_add]
          exact Nat.mul_le_mul_right _ Nat.lt_log2_self.le
      _ = 2 ^ 53 := roundQuotient_mul _ hden
  unfold unboundedRank
  generalize roundQuotient (n * 2 ^ 1074) (2 ^ (n.log2 + 1022)) = rounded at hlow hhigh
  omega

theorem unboundedRank_mono {a b : Nat} (ha : a ≠ 0) (h : a ≤ b) :
    unboundedRank a ≤ unboundedRank b := by
  have hb : b ≠ 0 := by omega
  have hlog : a.log2 ≤ b.log2 := by
    rw [Nat.le_log2 hb]
    exact (Nat.log2_self_le ha).trans h
  rcases Nat.lt_or_eq_of_le hlog with hlt | heq
  · calc unboundedRank a
        ≤ (a.log2 + 1024) * 2 ^ 52 := (binade_bounds ha).2
      _ ≤ (b.log2 + 1023) * 2 ^ 52 := Nat.mul_le_mul_right _ (by omega)
      _ ≤ unboundedRank b := (binade_bounds hb).1
  · unfold unboundedRank
    rw [heq]
    exact Nat.add_le_add_left (roundQuotient_mono _ (Nat.mul_le_mul_right _ h)) _

theorem rankOfRatio_one_mono {a b : Nat} (h : a ≤ b) :
    rankOfRatio a 1 ≤ rankOfRatio b 1 := by
  by_cases ha : a = 0
  · subst ha
    exact Nat.zero_le _
  · rw [rankOfRatio_one ha, rankOfRatio_one (by omega)]
    exact min_le_min_right _ (unboundedRank_mono ha h)

/-- The rank of the double nearest to a whole number. -/
def rankOfInteger (i : Int) : Int :=
  i.sign * rankOfRatio i.natAbs 1

theorem rankOfInteger_natCast (n : Nat) :
    rankOfInteger n = rankOfRatio n 1 := by
  cases n with
  | zero => rfl
  | succ n =>
      rw [rankOfInteger, Int.natAbs_natCast, Int.sign_natCast_of_ne_zero (Nat.succ_ne_zero n),
        one_mul]

theorem rankOfInteger_neg (i : Int) :
    rankOfInteger (-i) = -rankOfInteger i := by
  rw [rankOfInteger, Int.sign_neg, Int.natAbs_neg, neg_mul, ← rankOfInteger]

theorem rankOfInteger_nonneg {i : Int} (h : 0 ≤ i) : 0 ≤ rankOfInteger i := by
  lift i to Nat using h
  rw [rankOfInteger_natCast]
  exact Int.natCast_nonneg _

theorem rankOfInteger_mono {i j : Int} (h : i ≤ j) :
    rankOfInteger i ≤ rankOfInteger j := by
  have hnonneg : ∀ a b : Nat, a ≤ b → rankOfInteger a ≤ rankOfInteger b := by
    intro a b hab
    rw [rankOfInteger_natCast, rankOfInteger_natCast]
    exact Int.ofNat_le.mpr (rankOfRatio_one_mono hab)
  rcases Int.le_total 0 i with hi | hi
  · obtain ⟨a, rfl⟩ := Int.eq_ofNat_of_zero_le hi
    obtain ⟨b, rfl⟩ := Int.eq_ofNat_of_zero_le (hi.trans h)
    exact hnonneg a b (Int.ofNat_le.mp h)
  · obtain ⟨a, ha⟩ := Int.eq_ofNat_of_zero_le (neg_nonneg.mpr hi)
    obtain rfl : i = -(a : Int) := by omega
    rw [rankOfInteger_neg]
    rcases Int.le_total 0 j with hj | hj
    · have hleft := rankOfInteger_nonneg (Int.natCast_nonneg a)
      have hright := rankOfInteger_nonneg hj
      omega
    · obtain ⟨b, hb⟩ := Int.eq_ofNat_of_zero_le (neg_nonneg.mpr hj)
      obtain rfl : j = -(b : Int) := by omega
      rw [rankOfInteger_neg]
      exact neg_le_neg (hnonneg b a (by omega))

/-! ## Texts -/

theorem toLower_of_isDigit {c : Char} (h : c.isDigit) : c.toLower = c := by
  unfold Char.toLower
  refine dif_neg ?_
  simp only [Char.isDigit, Bool.and_eq_true, decide_eq_true_eq, ge_iff_le,
    UInt32.le_iff_toNat_le] at h ⊢
  show ¬ (65 ≤ c.val.toNat ∧ c.val.toNat ≤ 90)
  have hle : c.val.toNat ≤ 57 := h.2
  omega

section
variable {cs : List Char} {n : Nat}

/-- No number of the range has more digits than are read one by one. -/
theorem length_significant_le (hdigits : ∀ c ∈ cs, c.isDigit)
    (hn : Integer.digitsValue 0 cs ≤ Integer.signedLimit) :
    (cs.dropWhile (· == '0')).length ≤ 20 := by
  rw [← Integer.digitsValue_dropZeros] at hn
  cases hsignificant : cs.dropWhile (· == '0') with
  | nil => exact Nat.zero_le _
  | cons c rest =>
      rw [hsignificant, Integer.digitsValue_cons, Nat.mul_zero, Nat.zero_add] at hn
      have hmem : c ∈ cs :=
        (List.dropWhile_sublist _).mem (hsignificant ▸ List.mem_cons_self)
      have hc : c ≠ '0' := by
        have hhead := List.head?_dropWhile_not (· == '0') cs
        rw [hsignificant] at hhead
        simpa using hhead
      have hpos := Integer.digitValue_pos (hdigits c hmem) hc
      by_contra hlong
      have hpow : 10 ^ 20 ≤ 10 ^ rest.length :=
        Nat.pow_le_pow_right (by decide) (by simp only [List.length_cons] at hlong; omega)
      have hvalue : 10 ^ rest.length ≤ Integer.signedLimit := by
        calc 10 ^ rest.length
            ≤ Integer.digitValue c * 10 ^ rest.length := Nat.le_mul_of_pos_left _ hpos
          _ ≤ Integer.digitsValue (Integer.digitValue c) rest := Integer.le_digitsValue _ _
          _ ≤ Integer.signedLimit := hn
      exact absurd (hpow.trans hvalue) (by decide)

theorem rankOfDecimal_whole (hdigits : ∀ c ∈ cs, c.isDigit)
    (hn : Integer.digitsValue 0 cs ≤ Integer.signedLimit) :
    rankOfDecimal cs 0 = rankOfRatio (Integer.digitsValue 0 cs) 1 := by
  have hlength := length_significant_le hdigits hn
  unfold rankOfDecimal
  dsimp only
  rw [Integer.digitsValue_dropZeros]
  by_cases hzero : cs.dropWhile (· == '0') = []
  · have hvalue : Integer.digitsValue 0 cs = 0 := by
      rw [← Integer.digitsValue_dropZeros, hzero]
      rfl
    rw [hzero, hvalue]
    rfl
  · have hsmall : ¬ ((cs.dropWhile (· == '0')).length : Int) < -330 := by omega
    have hlarge : ¬ 310 < (cs.dropWhile (· == '0')).length := by omega
    simp [hzero, hsmall, hlarge]

theorem unsigned?_of_digits (h : Integer.digits? cs = some n)
    (hn : n ≤ Integer.signedLimit) :
    unsigned? cs = some (.number (rankOfRatio n 1)) := by
  obtain ⟨hne, hdigits, rfl⟩ := Integer.digits?_eq_some_iff.mp h
  have hlower : cs.map Char.toLower = cs := by
    rw [List.map_congr_left fun c hc => toLower_of_isDigit (hdigits c hc), List.map_id']
  have hname : ∀ name : List Char, name.all Char.isDigit = false → cs ≠ name := by
    rintro name hname rfl
    rw [List.all_eq_true.mpr hdigits] at hname
    cases hname
  have htake : cs.takeWhile Char.isDigit = cs := List.takeWhile_eq_self_iff.mpr hdigits
  have hdrop : cs.dropWhile Char.isDigit = [] := List.dropWhile_eq_nil_iff.mpr hdigits
  have hdecimal : decimalRank? cs = some (rankOfDecimal cs 0) := by
    simp [decimalRank?, htake, hdrop, fraction, exponent?, hne]
  unfold unsigned?
  rw [hlower, if_neg (hname _ (by decide)), hdecimal, rankOfDecimal_whole hdigits hn]
  simp [hname ['i', 'n', 'f'] (by decide),
    hname ['i', 'n', 'f', 'i', 'n', 'i', 't', 'y'] (by decide)]

theorem ofChars?_of_signed {i : Int} (h : Integer.signed? cs = some i) :
    ofChars? cs = some (.number (rankOfInteger i)) := by
  unfold Integer.signed? at h
  split at h
  · next digits =>
      obtain ⟨n, hn, h⟩ := Option.bind_eq_some_iff.mp h
      obtain ⟨hlimit, h⟩ := Option.ite_none_right_eq_some.mp h
      obtain rfl : -(n : Int) = i := Option.some.inj h
      show (unsigned? digits).map negate = _
      rw [unsigned?_of_digits hn hlimit, rankOfInteger_neg, rankOfInteger_natCast]
      rfl
  · next digits =>
      obtain ⟨n, hn, h⟩ := Option.bind_eq_some_iff.mp h
      obtain ⟨hlimit, h⟩ := Option.ite_none_right_eq_some.mp h
      obtain rfl : (n : Int) = i := Option.some.inj h
      show unsigned? digits = _
      rw [unsigned?_of_digits hn hlimit.le, rankOfInteger_natCast]
  · next hminus hplus =>
      obtain ⟨n, hn, h⟩ := Option.bind_eq_some_iff.mp h
      obtain ⟨hlimit, h⟩ := Option.ite_none_right_eq_some.mp h
      obtain rfl : (n : Int) = i := Option.some.inj h
      have hunsigned : ofChars? cs = unsigned? cs := by
        unfold ofChars?
        split
        · exact absurd rfl (hminus _)
        · exact absurd rfl (hplus _)
        · rfl
      rw [hunsigned, unsigned?_of_digits hn hlimit.le, rankOfInteger_natCast]

end

/-- Where a text stands among the doubles; a text that is no number and the
number that has no order stand nowhere. -/
def rank? (s : String) : Option Int :=
  match read? s with
  | some (.number r) => some r
  | _ => none

/-- The text of an integer is the text of the double nearest to it. -/
theorem rank?_of_integer {s : String} {i : Int} (h : Integer.read? s = some i) :
    rank? s = some (rankOfInteger i) := by
  have hread : read? s = some (.number (rankOfInteger i)) := ofChars?_of_signed h
  rw [rank?, hread]

end Binary64
end CsvQuery
