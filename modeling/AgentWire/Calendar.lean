/-!
# The calendar — Gregorian dates and days counted from 1970

The proleptic Gregorian calendar: a year divisible by four is a leap year, unless it is
divisible by a hundred and not by four hundred. Days are counted from 1970-01-01, backwards
too. The count is worked out on years that begin in March, so that the day that comes and goes
is the last one of its year: 400 years have 146097 days, 100 years 36524 and 4 years 1461, each
with one more where the last of them ends with a leap day.
-/

namespace AgentWire

/-- A date as year, month and day. -/
structure Date where
  year : Int
  month : Nat
  day : Nat
deriving DecidableEq, Repr

namespace Date

/-- A year with a twenty-ninth of February. -/
def isLeapYear (year : Int) : Bool :=
  year % 4 == 0 && (year % 100 != 0 || year % 400 == 0)

/-- The number of days of a month. -/
def daysInMonth (year : Int) (month : Nat) : Nat :=
  if month = 2 then (if isLeapYear year then 29 else 28)
  else if month = 4 ∨ month = 6 ∨ month = 9 ∨ month = 11 then 30
  else 31

/-- A date that the calendar has. -/
def IsValid (d : Date) : Prop :=
  1 ≤ d.month ∧ d.month ≤ 12 ∧ 1 ≤ d.day ∧ d.day ≤ daysInMonth d.year d.month

instance (d : Date) : Decidable d.IsValid := by
  unfold IsValid; infer_instance

/-- The days from 0000-03-01 to 1970-01-01. -/
def epochOffset : Int := 719468

/-- The days of a year that begins in March before its month of a given number, March being
    number 0. -/
def daysBeforeMonth (month : Nat) : Nat :=
  (153 * month + 2) / 5

/-- The number of a date in the count of days from 1970-01-01. -/
def toDay (d : Date) : Int :=
  let year := if d.month ≤ 2 then d.year - 1 else d.year
  let month := (d.month + 9) % 12
  365 * year + year / 4 - year / 100 + year / 400 + daysBeforeMonth month + d.day - 1 -
    epochOffset

/-- The date of a number in the count of days from 1970-01-01. -/
def ofDay (number : Int) : Date :=
  let day := number + epochOffset
  let inEra := (day % 146097).toNat
  let century := min (inEra / 36524) 3
  let inCentury := inEra - 36524 * century
  let inCycle := inCentury % 1461
  let yearOfCycle := min (inCycle / 365) 3
  let inYear := inCycle - 365 * yearOfCycle
  let month := (5 * inYear + 2) / 153
  let year : Int :=
    day / 146097 * 400 + 100 * century + 4 * (inCentury / 1461 : Nat) + yearOfCycle
  { year := if month < 10 then year else year + 1
    month := if month < 10 then month + 3 else month - 9
    day := inYear - daysBeforeMonth month + 1 }

example : ofDay 0 = ⟨1970, 1, 1⟩ ∧ ofDay (-719528) = ⟨0, 1, 1⟩ ∧ ofDay 11016 = ⟨2000, 2, 29⟩ ∧
    ofDay (-1) = ⟨1969, 12, 31⟩ ∧ ofDay 2932896 = ⟨9999, 12, 31⟩ := by decide

end Date

end AgentWire
