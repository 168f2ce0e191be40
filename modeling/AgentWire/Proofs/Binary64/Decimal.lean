import AgentWire.Proofs.Binary64.Nearest
import AgentWire.Proofs.Text.Digits

/-!
# Decimals of a double — the shortest one reads back

A decimal number stands for the same double wherever its point is put, as long as its exponent
makes up for it. The exact expansion of a double reads back, since its quotient is that of the
double times a power of five, and its size is nowhere near the bounds at which a decimal is
settled by its digits alone. The search for the shortest decimal accepts only what reads back,
so **whatever it ends with does**.
-/

namespace AgentWire.Binary64

/-- Moving the point of a decimal along with its exponent does not change its double. -/
theorem ofDecimal?_mul_pow (negative : Bool) {digits : Nat} (hpos : 0 < digits) (k : Nat)
    (exponent : Int) :
    ofDecimal? negative (digits * 10 ^ k) (exponent - k) = ofDecimal? negative digits exponent := by
  have hne : digits ≠ 0 := Nat.pos_iff_ne_zero.mp hpos
  have hlength : ((Nat.toDigits 10 (digits * 10 ^ k)).length : Int) =
      (Nat.toDigits 10 digits).length + k := by
    exact_mod_cast Numeral.length_ofNat_mul_pow hpos k
  unfold ofDecimal?
  simp only [Nat.pow_eq]
  rw [if_neg hne, if_neg (Nat.mul_ne_zero hne (by positivity)), hlength,
    show ((Nat.toDigits 10 digits).length : Int) + k + (exponent - k) =
      (Nat.toDigits 10 digits).length + exponent by ring]
  -- the quotients differ by the powers of ten that the new point needs below
  obtain ⟨extra, hextra⟩ : ∃ extra, (-(exponent - k)).toNat = (-exponent).toNat + extra :=
    ⟨(-(exponent - k)).toNat - (-exponent).toNat, by omega⟩
  have hshift : k + (exponent - k).toNat = exponent.toNat + extra := by omega
  rw [Nat.mul_assoc, ← pow_add, hshift, hextra, pow_add, pow_add, ← Nat.mul_assoc,
    ofRatio?_mul_right _ _ (by positivity) (by positivity)]

/-- The exact expansion of a double has too few digits to exceed every double. -/
theorem exactDecimal_not_large (x : Binary64) :
    ((Nat.toDigits 10 x.exactDecimal.digits).length : Int) + x.exactDecimal.exponent ≤ 310 := by
  obtain ⟨hbelow, -, hhighest, -⟩ := x.canonical
  have hsize : x.exactDecimal.digits < 10 ^ (310 + (-x.exponent).toNat) := by
    have hpower : (2 : Nat) ^ x.exponent.toNat ≤ 2 ^ 971 := by
      gcongr
      · norm_num
      · omega
    calc x.significand * 2 ^ x.exponent.toNat * 5 ^ (-x.exponent).toNat
        < 2 ^ 53 * 2 ^ 971 * 10 ^ (-x.exponent).toNat := by
          refine Nat.mul_lt_mul_of_lt_of_le ?_ (Nat.pow_le_pow_left (by norm_num) _) (by positivity)
          exact Nat.mul_lt_mul_of_lt_of_le hbelow hpower (by positivity)
      _ ≤ 10 ^ 310 * 10 ^ (-x.exponent).toNat :=
          Nat.mul_le_mul_right _ (by decide +kernel)
      _ = 10 ^ (310 + (-x.exponent).toNat) := (pow_add _ _ _).symm
  have hlength : (Numeral.ofNat x.exactDecimal.digits).length ≤ 310 + (-x.exponent).toNat :=
    (Numeral.length_ofNat_le_iff (by omega)).mpr hsize
  have hexponent : x.exactDecimal.exponent = min x.exponent 0 := rfl
  unfold Numeral.ofNat at hlength
  omega

/-- The exact expansion of a double other than zero has too many digits to fall below every
    double. -/
theorem exactDecimal_not_small (x : Binary64) (hne : x.significand ≠ 0) :
    -330 ≤ ((Nat.toDigits 10 x.exactDecimal.digits).length : Int) + x.exactDecimal.exponent := by
  obtain ⟨-, hlowest, -, -⟩ := x.canonical
  have hexponent : x.exactDecimal.exponent = min x.exponent 0 := rfl
  have hpositive := Numeral.length_ofNat_pos x.exactDecimal.digits
  have hsize := (Numeral.length_ofNat_le_iff hpositive).mp le_rfl
  unfold Numeral.ofNat at hpositive hsize
  by_contra hsmall
  have hshort : (Nat.toDigits 10 x.exactDecimal.digits).length + 331 ≤ (-x.exponent).toNat := by
    omega
  have hfives : 5 ^ (-x.exponent).toNat ≤ x.exactDecimal.digits :=
    Nat.le_mul_of_pos_left _ (Nat.mul_pos (Nat.pos_of_ne_zero hne) (Nat.pow_pos (by norm_num)))
  have htwos : (2 : Nat) ^ (-x.exponent).toNat ≤ 2 ^ 1074 := by
    gcongr
    · norm_num
    · omega
  -- with so few digits, the factors of two would outgrow the lowest exponent
  have hcontra : 5 ^ (-x.exponent).toNat * 10 ^ 331 <
      5 ^ (-x.exponent).toNat * 2 ^ (-x.exponent).toNat := by
    calc 5 ^ (-x.exponent).toNat * 10 ^ 331
        < 10 ^ (Nat.toDigits 10 x.exactDecimal.digits).length * 10 ^ 331 :=
          Nat.mul_lt_mul_of_pos_right (Nat.lt_of_le_of_lt hfives hsize) (by positivity)
      _ = 10 ^ ((Nat.toDigits 10 x.exactDecimal.digits).length + 331) := (pow_add _ _ _).symm
      _ ≤ 10 ^ (-x.exponent).toNat := Nat.pow_le_pow_right (by norm_num) hshort
      _ = 5 ^ (-x.exponent).toNat * 2 ^ (-x.exponent).toNat := by rw [← Nat.mul_pow]
  have hlarge : 10 ^ 331 < 2 ^ (-x.exponent).toNat := Nat.lt_of_mul_lt_mul_left hcontra
  exact absurd (Nat.lt_of_lt_of_le hlarge htwos) (by decide +kernel)

/-- The exact expansion of a double reads back. -/
theorem ofDecimal?_exactDecimal (x : Binary64) (hne : x.significand ≠ 0) :
    ofDecimal? x.negative x.exactDecimal.digits x.exactDecimal.exponent = some x := by
  have hdigits : x.exactDecimal.digits ≠ 0 :=
    Nat.mul_ne_zero (Nat.mul_ne_zero hne (NeZero.ne (2 ^ _))) (NeZero.ne (5 ^ _))
  have hexponent : x.exactDecimal.exponent = min x.exponent 0 := rfl
  have hlarge := exactDecimal_not_large x
  have hsmall := exactDecimal_not_small x hne
  unfold ofDecimal?
  simp only [Nat.pow_eq]
  rw [if_neg hdigits, if_neg (by omega), if_neg (by omega),
    show x.exactDecimal.exponent.toNat = 0 by omega,
    show (-x.exactDecimal.exponent).toNat = (-x.exponent).toNat by omega, pow_zero, Nat.mul_one,
    show (10 : Nat) ^ (-x.exponent).toNat = x.ratio.2 * 5 ^ (-x.exponent).toNat by
      rw [show x.ratio.2 = 2 ^ (-x.exponent).toNat from rfl, ← Nat.mul_pow],
    show x.exactDecimal.digits = x.ratio.1 * 5 ^ (-x.exponent).toNat from rfl]
  have hden : 0 < x.ratio.2 := Nat.pow_pos (by norm_num)
  rw [ofRatio?_mul_right _ _ hden (by positivity)]
  exact ofRatio?_ratio x

/-- **THE SHORTEST DECIMAL READS BACK** as the double it was found for. -/
theorem ofDecimal?_shortest (x : Binary64) :
    ofDecimal? x.negative x.shortest.digits x.shortest.exponent = some x := by
  unfold shortest
  split
  · rename_i hzero
    unfold ofDecimal?
    rw [if_pos rfl, ← eq_zero_of_significand hzero]
  · rename_i hne
    dsimp only
    cases hfound : (List.range 17).findSome? fun (n : Nat) =>
        onGrid? x (pointPosition x.ratio.1 x.ratio.2 - ((n : Int) + 1)) with
    | none => exact ofDecimal?_exactDecimal x hne
    | some d =>
        obtain ⟨n, -, hgrid⟩ := List.exists_of_findSome?_eq_some hfound
        have hback : readsBack x d = true := by
          unfold onGrid? at hgrid
          exact List.find?_some hgrid
        unfold readsBack at hback
        exact beq_iff_eq.mp hback

end AgentWire.Binary64
