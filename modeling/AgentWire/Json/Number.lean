import AgentWire.Binary64.Shortest
import AgentWire.Text.Numeral

/-!
# Numbers — what a JSON numeral stands for and how a number is written

A numeral without fraction and exponent stands for an integer as long as sixty-four bits hold
it, signed when it is negative and unsigned otherwise. Every other numeral, −0 among them,
stands for the nearest double.

A double is written with its shortest digits: positionally, with at least one digit after the
point, from 1e-5 up to below 1e16, and with an exponent elsewhere.
-/

namespace AgentWire.Json

/-- The integers kept exactly: those of a signed or an unsigned sixty-four bit word. -/
def IsWord (n : Int) : Prop :=
  -9_223_372_036_854_775_808 ≤ n ∧ n < 18_446_744_073_709_551_616

instance (n : Int) : Decidable (IsWord n) := by
  unfold IsWord; infer_instance

/-- A JSON number: a sixty-four bit integer or a finite double. -/
inductive Number where
  | integer (n : Int) (word : IsWord n)
  | double (x : Binary64)
deriving DecidableEq

/-- A numeral as written: sign, whole part, fraction (empty when there is no point), and the
    exponent with its sign. -/
structure NumberText where
  negative : Bool
  whole : List Char
  fraction : List Char
  exponent : Option (Bool × List Char)
deriving DecidableEq, Repr

namespace NumberText

/-- The power of ten by which the digits of a numeral are scaled. -/
def scale (t : NumberText) : Int :=
  let written : Int :=
    match t.exponent with
    | none => 0
    | some (true, digits) => -(Numeral.value digits : Int)
    | some (false, digits) => Numeral.value digits
  written - t.fraction.length

/-- The double nearest to a numeral, if it does not exceed every double. -/
def double? (t : NumberText) : Option Binary64 :=
  Binary64.ofDecimal? t.negative (Numeral.value (t.whole ++ t.fraction)) t.scale

/-- The integer a numeral stands for, if it is written as one and sixty-four bits hold it. -/
def integer? (t : NumberText) : Option Number :=
  let magnitude := Numeral.value t.whole
  let n : Int := if t.negative then -(magnitude : Int) else magnitude
  if h : t.fraction = [] ∧ t.exponent = none ∧ ¬(t.negative ∧ magnitude = 0) ∧ IsWord n then
    some (.integer n h.2.2.2)
  else none

/-- The number a numeral stands for, or nothing when it exceeds every double. -/
def number? (t : NumberText) : Option Number :=
  match t.integer? with
  | some n => some n
  | none => t.double?.map .double

end NumberText

-- ── Writing ───────────────────────────────────────────────────────────────────────

/-- Digits around a decimal point that stands `point` digits after their start. -/
def positional (digits : List Char) (point : Int) : List Char :=
  if point ≤ 0 then '0' :: '.' :: List.replicate (-point).toNat '0' ++ digits
  else if point < digits.length then
    digits.take point.toNat ++ '.' :: digits.drop point.toNat
  else digits ++ List.replicate (point.toNat - digits.length) '0' ++ ['.', '0']

/-- Digits with the point after the first of them, and the power of ten that makes up for it. -/
def scientific (digits : List Char) (power : Int) : List Char :=
  let mantissa :=
    match digits with
    | first :: second :: rest => first :: '.' :: second :: rest
    | short => short
  let sign := if power < 0 then '-' else '+'
  mantissa ++ 'e' :: sign :: Numeral.ofNat power.natAbs

/-- The text of a double. -/
def renderDouble (x : Binary64) : List Char :=
  let shortest := x.shortest
  let digits := Numeral.ofNat shortest.digits
  let point : Int := digits.length + shortest.exponent
  let magnitude :=
    if shortest.digits = 0 then ['0', '.', '0']
    else if -5 < point ∧ point ≤ 16 then positional digits point
    else scientific digits (point - 1)
  if x.negative then '-' :: magnitude else magnitude

/-- The text of a number. -/
def Number.render : Number → List Char
  | .integer n _ => Numeral.ofInt n
  | .double x => renderDouble x

/-- A natural number of sixty-four bits as a JSON number. -/
def Number.ofUInt64 (n : UInt64) : Number :=
  .integer n.toNat ⟨by omega, by have := n.toNat_lt; omega⟩

/-- A signed thirty-two bit number as a JSON number. -/
def Number.ofInt32 (n : Int32) : Number :=
  .integer n.toInt ⟨by have := n.le_toInt; omega, by have := n.toInt_lt; omega⟩

/-- An unsigned thirty-two bit number as a JSON number. -/
def Number.ofUInt32 (n : UInt32) : Number :=
  .integer n.toNat ⟨by omega, by have := n.toNat_lt; omega⟩

end AgentWire.Json
