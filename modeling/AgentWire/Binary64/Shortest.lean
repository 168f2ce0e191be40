import AgentWire.Binary64.Rounding

/-!
# Shortest decimals — the fewest digits that read back

Of all decimal numbers that round to a double, the one with the fewest digits is chosen; of
several, the one nearest to the double, and of two equally near ones the one whose last digit
is even. For one, two, up to seventeen digits the two neighbours of the double on that
decimal grid are read back; should none do, the exact decimal expansion stands in.
-/

namespace AgentWire

/-- A decimal number `digits · 10 ^ exponent`. -/
structure Decimal where
  digits : Nat
  exponent : Int
deriving DecidableEq, Repr

namespace Decimal

/-- Removes trailing zeros, at most `steps` of them, and moves the exponent along. -/
def stripUpTo : Nat → Decimal → Decimal
  | 0, d => d
  | steps + 1, d =>
    if d.digits ≠ 0 ∧ d.digits % 10 = 0 then stripUpTo steps ⟨d.digits / 10, d.exponent + 1⟩
    else d

/-- The same number without trailing zeros. -/
def strip (d : Decimal) : Decimal :=
  d.stripUpTo (Nat.toDigits 10 d.digits).length

end Decimal

namespace Binary64

/-- The position of the decimal point: the `p` with `10 ^ (p - 1) ≤ num / den < 10 ^ p`. -/
def pointPosition (num den : Nat) : Int :=
  if den ≤ num then (Nat.toDigits 10 (num / den)).length
  else 1 - ((Nat.toDigits 10 ((den - 1) / num)).length : Int)

/-- The decimal reads back as the double. -/
def readsBack (x : Binary64) (d : Decimal) : Bool :=
  ofDecimal? x.negative d.digits d.exponent == some x

/-- The nearest decimal of the grid `10 ^ exponent` that reads back as the double, if either of
    its two neighbours there does. -/
def onGrid? (x : Binary64) (exponent : Int) : Option Decimal :=
  let (num, den) := x.ratio
  let num := num * Nat.pow 10 (-exponent).toNat
  let den := den * Nat.pow 10 exponent.toNat
  let below := num / den
  let twice := 2 * (num % den)
  let belowFirst := twice < den ∨ (twice = den ∧ below % 2 = 0)
  let candidates := if belowFirst then [below, below + 1] else [below + 1, below]
  (candidates.map fun digits => Decimal.strip ⟨digits, exponent⟩).find? (readsBack x)

/-- The exact value of a double as a decimal. -/
def exactDecimal (x : Binary64) : Decimal :=
  ⟨x.significand * Nat.pow 2 x.exponent.toNat * Nat.pow 5 (-x.exponent).toNat, min x.exponent 0⟩

/-- The shortest decimal that reads back as the double, with no trailing zero. -/
def shortest (x : Binary64) : Decimal :=
  if x.significand = 0 then ⟨0, 0⟩
  else
    let (num, den) := x.ratio
    let point := pointPosition num den
    let found := (List.range 17).findSome? fun (n : Nat) => onGrid? x (point - ((n : Int) + 1))
    found.getD (exactDecimal x)

end Binary64

end AgentWire
