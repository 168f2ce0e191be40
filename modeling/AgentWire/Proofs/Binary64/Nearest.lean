import AgentWire.Binary64.Shortest
import Mathlib.Data.Int.Log
import Mathlib.Tactic

/-!
# The nearest double — a function of the number, whatever its quotient

Rounding works on a quotient of natural numbers. The power of two it picks is told by the binary
logarithm of the quotient as a rational number (`unitExponent_eq`), so a common factor of both
parts changes nothing, and neither does a decimal point moved along with the exponent.

A double read from its own magnitude is that double, which holds of its exact decimal expansion
too. Hence **the shortest decimal of a double reads back**: the search accepts only what does, and
the expansion stands in where the search finds nothing.
-/

namespace AgentWire

-- ── Quotients rounded to integers ─────────────────────────────────────────────────

/-- A common factor does not change the nearest integer. -/
theorem roundQuotient_mul_right (num den : Nat) {c : Nat} (hc : 0 < c) :
    roundQuotient (num * c) (den * c) = roundQuotient num den := by
  unfold roundQuotient
  rw [Nat.mul_div_mul_right _ _ hc, Nat.mul_mod_mul_right]
  dsimp only
  have hlt : 2 * (num % den * c) < den * c ↔ 2 * (num % den) < den := by
    rw [← Nat.mul_assoc]
    exact Nat.mul_lt_mul_right hc
  have heq : 2 * (num % den * c) = den * c ↔ 2 * (num % den) = den := by
    rw [← Nat.mul_assoc]
    exact Nat.mul_left_inj (Nat.pos_iff_ne_zero.mp hc)
  simp only [hlt, heq]

/-- An integer is the nearest one to itself. -/
theorem roundQuotient_mul_self (n : Nat) {den : Nat} (hden : 0 < den) :
    roundQuotient (n * den) den = n := by
  unfold roundQuotient
  rw [Nat.mul_div_cancel _ hden, Nat.mul_mod_left]
  rw [if_pos (Or.inl (by omega))]

namespace Binary64

-- ── The power of two of a quotient ────────────────────────────────────────────────

/-- A power with an integer exponent is the quotient of two powers with natural ones. -/
theorem two_zpow_eq (e : Int) : (2 : ℚ) ^ e = (2 : ℚ) ^ e.toNat / (2 : ℚ) ^ (-e).toNat := by
  rw [eq_div_iff (by positivity), ← zpow_natCast, ← zpow_natCast, ← zpow_add₀ (by norm_num)]
  congr 1
  omega

/-- Comparing a quotient with a power of two, both sides made whole. -/
theorem lt_two_zpow_iff (num : Nat) {den : Nat} (hden : 0 < den) (e : Int) :
    num * 2 ^ (-e).toNat < den * 2 ^ e.toNat * 2 ^ 52 ↔
      (num : ℚ) / den < (2 : ℚ) ^ (e + 52) := by
  have hden' : (0 : ℚ) < den := by exact_mod_cast hden
  rw [zpow_add₀ (by norm_num), two_zpow_eq, div_lt_iff₀ hden', div_mul_eq_mul_div,
    div_mul_eq_mul_div, lt_div_iff₀ (by positivity)]
  rw [← Nat.cast_lt (α := ℚ)]
  push_cast
  rw [show (den : ℚ) * 2 ^ e.toNat * 4503599627370496 = 2 ^ e.toNat * 4503599627370496 * den by
    ring]

/-- The integer logarithms of its parts bracket a quotient. -/
theorem quotient_bracket {num den : Nat} (hnum : 0 < num) (hden : 0 < den) :
    (2 : ℚ) ^ ((num.log2 : Int) - den.log2 - 1) < (num : ℚ) / den ∧
      (num : ℚ) / den < (2 : ℚ) ^ ((num.log2 : Int) - den.log2 + 1) := by
  have hden' : (0 : ℚ) < den := by exact_mod_cast hden
  have hnumLow : (2 : ℚ) ^ num.log2 ≤ num := by
    exact_mod_cast Nat.log2_self_le (Nat.pos_iff_ne_zero.mp hnum)
  have hnumHigh : (num : ℚ) < 2 ^ (num.log2 + 1) := by exact_mod_cast Nat.lt_log2_self
  have hdenLow : (2 : ℚ) ^ den.log2 ≤ den := by
    exact_mod_cast Nat.log2_self_le (Nat.pos_iff_ne_zero.mp hden)
  have hdenHigh : (den : ℚ) < 2 ^ (den.log2 + 1) := by exact_mod_cast Nat.lt_log2_self
  have hlow : (2 : ℚ) ^ ((num.log2 : Int) - den.log2 - 1) = 2 ^ num.log2 / 2 ^ (den.log2 + 1) := by
    rw [show (num.log2 : Int) - den.log2 - 1 = (num.log2 : Int) - ((den.log2 + 1 : Nat) : Int) by
      push_cast; ring, zpow_sub₀ (by norm_num), zpow_natCast, zpow_natCast]
  have hhigh : (2 : ℚ) ^ ((num.log2 : Int) - den.log2 + 1) = 2 ^ (num.log2 + 1) / 2 ^ den.log2 := by
    rw [show (num.log2 : Int) - den.log2 + 1 = ((num.log2 + 1 : Nat) : Int) - (den.log2 : Int) by
      push_cast; ring, zpow_sub₀ (by norm_num), zpow_natCast, zpow_natCast]
  rw [hlow, hhigh]
  constructor
  · rw [div_lt_div_iff₀ (by positivity) hden']
    calc (2 : ℚ) ^ num.log2 * den ≤ num * den := by gcongr
      _ < num * 2 ^ (den.log2 + 1) := by gcongr
  · rw [div_lt_div_iff₀ hden' (by positivity)]
    calc (num : ℚ) * 2 ^ den.log2 ≤ num * den := by gcongr
      _ < 2 ^ (num.log2 + 1) * den := by gcongr

/-- The powers of two around a number tell its binary logarithm. -/
theorem log_eq_of_bracket {r : ℚ} (hr : 0 < r) {e : Int} (hlow : (2 : ℚ) ^ e ≤ r)
    (hhigh : r < (2 : ℚ) ^ (e + 1)) : Int.log 2 r = e := by
  have hle : e ≤ Int.log 2 r :=
    (Int.zpow_le_iff_le_log (by norm_num) hr).mp (by exact_mod_cast hlow)
  have hlt : Int.log 2 r < e + 1 :=
    (Int.lt_zpow_iff_log_lt (by norm_num) hr).mp (by exact_mod_cast hhigh)
  omega

/-- **The power of two is told by the quotient as a number.** -/
theorem unitExponent_eq {num den : Nat} (hnum : 0 < num) (hden : 0 < den) :
    unitExponent num den = max (Int.log 2 ((num : ℚ) / den) - 52) (-1074) := by
  have hr : (0 : ℚ) < (num : ℚ) / den := by positivity
  obtain ⟨hlow, hhigh⟩ := quotient_bracket hnum hden
  unfold unitExponent
  simp only [Nat.pow_eq]
  have hguess := lt_two_zpow_iff num hden ((num.log2 : Int) - den.log2 - 52)
  rw [sub_add_cancel, show (2 : Nat) ^ 52 = 4503599627370496 by norm_num] at hguess
  by_cases hsmall : (num : ℚ) / den < (2 : ℚ) ^ ((num.log2 : Int) - den.log2)
  · rw [if_pos (hguess.mpr hsmall),
      log_eq_of_bracket hr hlow.le (by rw [sub_add_cancel]; exact hsmall)]
    congr 1
    ring
  · rw [if_neg (fun h => hsmall (hguess.mp h)),
      log_eq_of_bracket hr (not_lt.mp hsmall) hhigh]

-- ── Doubles from quotients ────────────────────────────────────────────────────────

/-- **A common factor does not change the nearest double.** -/
theorem ofRatio?_mul_right (negative : Bool) (num : Nat) {den c : Nat} (hden : 0 < den)
    (hc : 0 < c) : ofRatio? negative (num * c) (den * c) = ofRatio? negative num den := by
  by_cases hnum : num = 0
  · unfold ofRatio?
    rw [if_pos hnum, if_pos (by rw [hnum, Nat.zero_mul])]
  · have hpos : 0 < num := Nat.pos_of_ne_zero hnum
    have hunit : unitExponent (num * c) (den * c) = unitExponent num den := by
      rw [unitExponent_eq (Nat.mul_pos hpos hc) (Nat.mul_pos hden hc), unitExponent_eq hpos hden]
      push_cast
      rw [mul_div_mul_right _ _ (by exact_mod_cast Nat.pos_iff_ne_zero.mp hc)]
    unfold ofRatio?
    rw [if_neg hnum, if_neg (Nat.mul_ne_zero hnum (Nat.pos_iff_ne_zero.mp hc)), hunit]
    dsimp only
    rw [Nat.mul_right_comm num c, Nat.mul_right_comm den c, roundQuotient_mul_right _ _ hc]

/-- The power of two of a double's magnitude is its own. -/
theorem unitExponent_ratio (x : Binary64) (hne : x.significand ≠ 0) :
    unitExponent x.ratio.1 x.ratio.2 = x.exponent := by
  obtain ⟨hbelow, hlowest, -, hcanonical⟩ := x.canonical
  have hpos : 0 < x.significand := Nat.pos_of_ne_zero hne
  have hvalue : ((x.ratio.1 : Nat) : ℚ) / (x.ratio.2 : Nat) =
      x.significand * (2 : ℚ) ^ x.exponent := by
    rw [two_zpow_eq]
    show ((x.significand * 2 ^ x.exponent.toNat : Nat) : ℚ) / ((2 ^ (-x.exponent).toNat : Nat) : ℚ)
      = _
    push_cast
    rw [mul_div_assoc]
  have hpow : (0 : ℚ) < (2 : ℚ) ^ x.exponent := zpow_pos (by norm_num) _
  have hr : (0 : ℚ) < x.significand * (2 : ℚ) ^ x.exponent := by positivity
  have hnum : 0 < x.ratio.1 := Nat.mul_pos hpos (Nat.pow_pos (by norm_num))
  have hden : 0 < x.ratio.2 := Nat.pow_pos (by norm_num)
  rw [unitExponent_eq hnum hden, hvalue]
  have hhigh : (x.significand : ℚ) * (2 : ℚ) ^ x.exponent < (2 : ℚ) ^ (x.exponent + 53) := by
    rw [add_comm, zpow_add₀ (by norm_num)]
    exact mul_lt_mul_of_pos_right (by exact_mod_cast hbelow) hpow
  rcases hcanonical with hnormal | hsubnormal
  · -- a full significand fixes the logarithm from both sides
    have hlow : (2 : ℚ) ^ (x.exponent + 52) ≤ x.significand * (2 : ℚ) ^ x.exponent := by
      rw [add_comm, zpow_add₀ (by norm_num)]
      exact mul_le_mul_of_nonneg_right (by exact_mod_cast hnormal) hpow.le
    rw [log_eq_of_bracket hr hlow (by rw [add_assoc]; exact hhigh)]
    omega
  · -- a shorter one stands at the lowest exponent there is
    have hlog : Int.log 2 ((x.significand : ℚ) * (2 : ℚ) ^ x.exponent) < x.exponent + 53 :=
      (Int.lt_zpow_iff_log_lt (by norm_num) hr).mp (by exact_mod_cast hhigh)
    omega

/-- A double whose significand is nothing is a zero. -/
theorem eq_zero_of_significand {x : Binary64} (h : x.significand = 0) : x = zero x.negative := by
  obtain ⟨-, -, -, hcanonical⟩ := x.canonical
  have hexponent : x.exponent = -1074 := by
    rcases hcanonical with hnormal | hlowest
    · rw [h] at hnormal
      exact absurd hnormal (by norm_num)
    · exact hlowest
  cases x
  cases h
  cases hexponent
  rfl

/-- **A double is the nearest one to its own magnitude.** -/
theorem ofRatio?_ratio (x : Binary64) : ofRatio? x.negative x.ratio.1 x.ratio.2 = some x := by
  by_cases hzero : x.significand = 0
  · have hnum : x.ratio.1 = 0 := by
      show x.significand * _ = 0
      rw [hzero, Nat.zero_mul]
    unfold ofRatio?
    rw [if_pos hnum, ← eq_zero_of_significand hzero]
  · -- at its own power of two the quotient is the significand, and nothing is rounded
    have hnum : x.ratio.1 ≠ 0 :=
      Nat.mul_ne_zero hzero (Nat.pos_iff_ne_zero.mp (Nat.pow_pos (by norm_num)))
    unfold ofRatio?
    rw [if_neg hnum, unitExponent_ratio x hzero]
    simp only [Nat.pow_eq]
    rw [show x.ratio.1 * 2 ^ (-x.exponent).toNat =
        x.significand * (x.ratio.2 * 2 ^ x.exponent.toNat) by
      unfold ratio
      simp only [Nat.pow_eq]
      ring]
    have hden : 0 < x.ratio.2 * 2 ^ x.exponent.toNat :=
      Nat.mul_pos (Nat.pow_pos (by norm_num)) (by positivity)
    rw [roundQuotient_mul_self _ hden, if_neg (Nat.ne_of_lt x.canonical.1)]
    unfold pack?
    rw [dif_pos x.canonical]

end Binary64

end AgentWire
