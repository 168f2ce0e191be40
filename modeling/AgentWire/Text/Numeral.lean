/-!
# Numerals — numbers written in decimal digits

Three written forms of a number: as many digits as it needs, the same with a minus sign in
front when it is negative, and a fixed width with leading zeros. Reading undoes writing.
-/

namespace AgentWire.Numeral

/-- The digits of a natural number, without leading zeros. -/
def ofNat (n : Nat) : List Char :=
  Nat.toDigits 10 n

/-- The digits of an integer, after a minus sign when it is negative. -/
def ofInt : Int → List Char
  | .ofNat n => ofNat n
  | .negSucc n => '-' :: ofNat (n + 1)

/-- The number that a list of digits stands for. -/
def value (digits : List Char) : Nat :=
  Nat.ofDigitChars 10 digits 0

/-- The last `width` digits of a number, leading zeros included. -/
def padded : Nat → Nat → List Char
  | 0, _ => []
  | width + 1, n => padded width (n / 10) ++ [Nat.digitChar (n % 10)]

/-- An integer in at least `width` digits, after its sign when `signed` is set or it is
    negative. -/
def signedPadded (signed : Bool) (width : Nat) (n : Int) : List Char :=
  let digits := ofNat n.natAbs
  let body := List.replicate (width - digits.length) '0' ++ digits
  if n < 0 then '-' :: body else if signed then '+' :: body else body

-- ── Reading undoes writing ────────────────────────────────────────────────────────

@[simp] theorem value_ofNat (n : Nat) : value (ofNat n) = n :=
  Nat.ofDigitChars_ten_toDigits

theorem isDigit_of_mem_ofNat {n : Nat} {c : Char} (h : c ∈ ofNat n) : c.isDigit = true :=
  Nat.isDigit_of_mem_toDigits (by decide) (by decide) h

theorem ofNat_ne_nil (n : Nat) : ofNat n ≠ [] :=
  Nat.toDigits_ne_nil

@[simp] theorem length_padded (width n : Nat) : (padded width n).length = width := by
  induction width generalizing n with
  | zero => rfl
  | succ width ih => simp [padded, ih]

end AgentWire.Numeral
