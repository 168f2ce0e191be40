/-!
# Doubles — finite binary64 numbers, exactly

A finite double is a sign, a significand below 2^53 and a power of two. The significand of a
normal number uses all fifty-three bits; a smaller one stands at the lowest power, −1074. So
every finite double has one form, and equality of forms tells 0.0 from −0.0.
-/

namespace AgentWire

/-- The conditions under which a significand and a power of two are the one form of a double: the
    significand is below 2^53, and not below 2^52 unless the power is the lowest. -/
def IsBinary64 (significand : Nat) (exponent : Int) : Prop :=
  significand < 9_007_199_254_740_992 ∧ -1074 ≤ exponent ∧ exponent ≤ 971 ∧
    (4_503_599_627_370_496 ≤ significand ∨ exponent = -1074)

instance (significand : Nat) (exponent : Int) : Decidable (IsBinary64 significand exponent) := by
  unfold IsBinary64; infer_instance

/-- A finite double: `± significand · 2 ^ exponent`. -/
structure Binary64 where
  negative : Bool
  significand : Nat
  exponent : Int
  canonical : IsBinary64 significand exponent
deriving DecidableEq

namespace Binary64

/-- The zero of either sign. -/
def zero (negative : Bool) : Binary64 :=
  ⟨negative, 0, -1074, by decide⟩

instance : Inhabited Binary64 := ⟨zero false⟩

/-- The magnitude as a quotient of two natural numbers. -/
def ratio (x : Binary64) : Nat × Nat :=
  (x.significand * Nat.pow 2 x.exponent.toNat, Nat.pow 2 (-x.exponent).toNat)

end Binary64

end AgentWire
