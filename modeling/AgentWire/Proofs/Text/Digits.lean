import AgentWire.Text.Numeral
import Mathlib.Tactic

/-!
# Digits — how many a number has, and which comes first

The digits of a number are as many as the powers of ten it reaches. Zeros behind them multiply it
by ten each, zeros in front of them say nothing, and a number other than zero does not begin with
one.
-/

namespace AgentWire.Numeral

/-- A number has at most so many digits when it is below that power of ten. -/
theorem length_ofNat_le_iff {n width : Nat} (hwidth : 0 < width) :
    (ofNat n).length ≤ width ↔ n < 10 ^ width :=
  Nat.length_toDigits_le_iff (by norm_num) hwidth

theorem length_ofNat_pos (n : Nat) : 0 < (ofNat n).length :=
  List.length_pos_of_ne_nil (ofNat_ne_nil n)

/-- A number other than zero reaches the power of ten of its first digit. -/
theorem pow_le_of_pos {n : Nat} (hpos : 0 < n) : 10 ^ ((ofNat n).length - 1) ≤ n := by
  by_cases hone : (ofNat n).length = 1
  · rw [hone]
    exact hpos
  · have hlength := length_ofNat_pos n
    by_contra hbelow
    have hle := (length_ofNat_le_iff (by omega)).mpr (not_le.mp hbelow)
    omega

/-- Each factor of ten is one more digit. -/
theorem length_ofNat_mul_pow {n : Nat} (hpos : 0 < n) (k : Nat) :
    (ofNat (n * 10 ^ k)).length = (ofNat n).length + k := by
  have hlength := length_ofNat_pos n
  apply Nat.le_antisymm
  · refine (length_ofNat_le_iff (by omega)).mpr ?_
    rw [pow_add]
    exact Nat.mul_lt_mul_of_pos_right ((length_ofNat_le_iff hlength).mp le_rfl) (by positivity)
  · by_contra hshort
    have hle : (ofNat (n * 10 ^ k)).length ≤ (ofNat n).length - 1 + k := by omega
    have hpositive := length_ofNat_pos (n * 10 ^ k)
    have hbelow := (length_ofNat_le_iff (by omega)).mp hle
    rw [pow_add] at hbelow
    exact absurd (pow_le_of_pos hpos) (not_le.mpr (Nat.lt_of_mul_lt_mul_right hbelow))

/-- A number other than zero does not begin with a zero. -/
theorem ofNat_ne_zero_cons {n : Nat} (hpos : 0 < n) (rest : List Char) :
    ofNat n ≠ '0' :: rest := by
  induction n using Nat.strong_induction_on generalizing rest with
  | _ n ih =>
      unfold ofNat
      by_cases hone : n < 10
      · rw [Nat.toDigits_of_lt_base hone]
        intro heq
        have hzero := Nat.digitChar_eq_zero.mp (List.cons.inj heq).1
        omega
      · rw [Nat.toDigits_of_base_le (by norm_num) (by omega)]
        intro heq
        cases hfront : Nat.toDigits 10 (n / 10) with
        | nil => exact ofNat_ne_nil _ hfront
        | cons c more =>
            rw [hfront] at heq
            have hc : c = '0' := (List.cons.inj heq).1
            subst hc
            exact ih (n / 10) (by omega) (by omega) more hfront

-- ── Zeros around digits ───────────────────────────────────────────────────────────

theorem value_append (digits more : List Char) :
    value (digits ++ more) = 10 ^ more.length * value digits + value more := by
  unfold value
  rw [Nat.ofDigitChars_append, Nat.ofDigitChars_eq_ofDigitChars_zero]

theorem value_zeros (k : Nat) : value (List.replicate k '0') = 0 := by
  unfold value
  rw [Nat.ofDigitChars_replicate_zero, Nat.mul_zero]

/-- Zeros in front of digits say nothing. -/
theorem value_zeros_append (k : Nat) (digits : List Char) :
    value (List.replicate k '0' ++ digits) = value digits := by
  rw [value_append, value_zeros, Nat.mul_zero, Nat.zero_add]

/-- Each zero behind digits is a factor of ten. -/
theorem value_append_zeros (digits : List Char) (k : Nat) :
    value (digits ++ List.replicate k '0') = value digits * 10 ^ k := by
  rw [value_append, value_zeros, Nat.add_zero, List.length_replicate, Nat.mul_comm]

-- ── Digits of a given width ───────────────────────────────────────────────────────

/-- So many decimal digits, and nothing else. -/
def Digits (width : Nat) (digits : List Char) : Prop :=
  digits.length = width ∧ ∀ c ∈ digits, c.isDigit = true

/-- A decimal digit is that of a number below ten. -/
theorem exists_digitChar_of_isDigit {c : Char} (h : c.isDigit = true) :
    ∃ d < 10, c = Nat.digitChar d := by
  have hbounds : 48 ≤ c.toNat ∧ c.toNat ≤ 57 := by
    simp only [Char.isDigit, Bool.and_eq_true, decide_eq_true_eq, ge_iff_le,
      UInt32.le_iff_toNat_le] at h
    exact h
  refine ⟨c.toNat - 48, by omega, Char.toNat_inj.mp ?_⟩
  rw [Nat.toNat_digitChar_of_lt_ten (by omega)]
  omega

theorem isDigit_digitChar : ∀ d < 10, (Nat.digitChar d).isDigit = true := by
  decide

theorem value_digitChar : ∀ d < 10, value [Nat.digitChar d] = d := by
  decide

/-- One more digit behind others. -/
theorem value_concat (digits : List Char) {d : Nat} (h : d < 10) :
    value (digits ++ [Nat.digitChar d]) = 10 * value digits + d := by
  rw [value_append, value_digitChar d h]
  rfl

/-- A padded numeral stands for the number modulo the power of ten of its width. -/
theorem value_padded (width n : Nat) : value (padded width n) = n % 10 ^ width := by
  induction width generalizing n with
  | zero => simp [padded, value, Nat.mod_one]
  | succ width ih =>
      have digit : n % 10 < 10 := Nat.mod_lt _ (by decide)
      have below := ih (n / 10)
      simp only [value] at below
      rw [padded, value, Nat.ofDigitChars_append, below,
        Nat.ofDigitChars_cons_digitChar_of_lt_ten digit, Nat.ofDigitChars_nil,
        Nat.pow_succ, Nat.mul_comm (10 ^ width) 10, Nat.mod_mul]
      omega

/-- A padded numeral has its width in digits. -/
theorem digits_padded (width n : Nat) : Digits width (padded width n) := by
  refine ⟨length_padded width n, ?_⟩
  induction width generalizing n with
  | zero => intro c hmem; exact nomatch hmem
  | succ width ih =>
      intro c hmem
      rcases List.mem_append.mp hmem with hfront | hlast
      · exact ih (n / 10) c hfront
      · rw [List.mem_singleton.mp hlast]
        exact isDigit_digitChar (n % 10) (Nat.mod_lt n (by decide))

/-- Digits of a width are fewer digits and a last one. -/
theorem Digits.exists_concat {width : Nat} {digits : List Char} (h : Digits (width + 1) digits) :
    ∃ front d, d < 10 ∧ Digits width front ∧ digits = front ++ [Nat.digitChar d] := by
  obtain ⟨hlength, hdigits⟩ := h
  rcases List.eq_nil_or_concat digits with rfl | ⟨front, c, rfl⟩
  · exact nomatch hlength
  · rw [List.concat_eq_append] at *
    obtain ⟨d, hd, rfl⟩ := exists_digitChar_of_isDigit (hdigits c (by simp))
    refine ⟨front, d, hd, ⟨?_, ?_⟩, rfl⟩
    · simpa using hlength
    · intro other hmem
      exact hdigits other (List.mem_append_left _ hmem)

/-- **DIGITS ARE THE PADDED NUMERAL OF WHAT THEY STAND FOR**, which is below the power of ten of
    their width. -/
theorem Digits.padded_value {width : Nat} {digits : List Char} (h : Digits width digits) :
    padded width (value digits) = digits ∧ value digits < 10 ^ width := by
  induction width generalizing digits with
  | zero =>
      rw [List.length_eq_zero_iff.mp h.1]
      exact ⟨rfl, by decide⟩
  | succ width ih =>
      obtain ⟨front, d, hd, hfront, rfl⟩ := h.exists_concat
      obtain ⟨hback, hlt⟩ := ih hfront
      have hquotient : (10 * value front + d) / 10 = value front := by omega
      have hremainder : (10 * value front + d) % 10 = d := by omega
      rw [value_concat front hd, padded, hquotient, hremainder, hback, pow_succ]
      exact ⟨rfl, by omega⟩

end AgentWire.Numeral
