import AgentWire.Binary64.Basic

/-!
# Rounding — the double nearest to a quotient or a decimal number

A positive quotient is written at the power of two that leaves a fifty-three bit significand
(or at the lowest power there is), rounded to the nearest integer there, an exact half to the
even neighbour. A quotient that rounds above the largest double has no nearest double.
-/

namespace AgentWire

/-- The integer nearest to `num / den`; an exact half goes to the even neighbour. -/
def roundQuotient (num den : Nat) : Nat :=
  let quotient := num / den
  let remainder := num % den
  if 2 * remainder < den ∨ (2 * remainder = den ∧ quotient % 2 = 0) then quotient
  else quotient + 1

namespace Binary64

/-- The power of two at which `num / den` has a fifty-three bit integer part, one of at least 2^52,
    but no lower than the lowest power of a double. -/
def unitExponent (num den : Nat) : Int :=
  let guess : Int := (num.log2 : Int) - (den.log2 : Int) - 52
  let small := num * Nat.pow 2 (-guess).toNat < den * Nat.pow 2 guess.toNat * 4_503_599_627_370_496
  max (if small then guess - 1 else guess) (-1074)

/-- A significand at a power of two as a double, when that is the form of one. -/
def pack? (negative : Bool) (significand : Nat) (exponent : Int) : Option Binary64 :=
  if h : IsBinary64 significand exponent then some ⟨negative, significand, exponent, h⟩ else none

/-- The double nearest to `num / den`, or nothing when that exceeds every double. A significand
    that is rounded up to 2^53 is 2^52 at the next power of two. -/
def ofRatio? (negative : Bool) (num den : Nat) : Option Binary64 :=
  if num = 0 then some (zero negative)
  else
    let exponent := unitExponent num den
    let significand :=
      roundQuotient (num * Nat.pow 2 (-exponent).toNat) (den * Nat.pow 2 exponent.toNat)
    if significand = 9_007_199_254_740_992 then
      pack? negative 4_503_599_627_370_496 (exponent + 1)
    else pack? negative significand exponent

/-- The double nearest to `± digits · 10 ^ exponent`, or nothing when that exceeds every double.
    Numbers far outside the range are settled by their count of digits alone. -/
def ofDecimal? (negative : Bool) (digits : Nat) (exponent : Int) : Option Binary64 :=
  let magnitude : Int := (Nat.toDigits 10 digits).length + exponent
  if digits = 0 then some (zero negative)
  else if 310 < magnitude then none
  else if magnitude < -330 then some (zero negative)
  else ofRatio? negative (digits * Nat.pow 10 exponent.toNat) (Nat.pow 10 (-exponent).toNat)

end Binary64

end AgentWire
