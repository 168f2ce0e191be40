import AgentWire.Calendar
import AgentWire.Fault

/-!
# Timestamps — instants of the years 0000 to 9999, to the millisecond

A timestamp is what its text `YYYY-MM-DDTHH:MM:SS.mmmZ` can say: an instant of UTC between the
first and the last of those years, in whole milliseconds. It is kept as the milliseconds since
1970, so its order is the order of time. An `Instant` is finer and wider, and may stand inside
a leap second; it becomes a timestamp by dropping what is below a millisecond.
-/

namespace AgentWire

/-- The milliseconds since 1970 that lie in the years 0000 to 9999. -/
def InFourDigitYears (millis : Int) : Prop :=
  -62167219200000 ≤ millis ∧ millis ≤ 253402300799999

instance (millis : Int) : Decidable (InFourDigitYears millis) := by
  unfold InFourDigitYears; infer_instance

/-- An instant of UTC in whole milliseconds. -/
structure Timestamp where
  millis : Int
  inRange : InFourDigitYears millis
deriving DecidableEq

/-- An instant of UTC: whole seconds since 1970 and nanoseconds after them. From 10^9 on the
    nanoseconds stand inside a leap second that follows the whole one. -/
structure Instant where
  seconds : Int
  nanos : Nat
deriving DecidableEq, Repr

namespace Timestamp

instance : LT Timestamp := ⟨fun a b => a.millis < b.millis⟩
instance : LE Timestamp := ⟨fun a b => a.millis ≤ b.millis⟩
instance (a b : Timestamp) : Decidable (a < b) := inferInstanceAs (Decidable (a.millis < b.millis))
instance (a b : Timestamp) : Decidable (a ≤ b) := inferInstanceAs (Decidable (a.millis ≤ b.millis))

/-- 0001-01-01T00:00:00.000Z, the time of what has no time. -/
def zero : Timestamp := ⟨-62135596800000, by decide⟩

instance : Inhabited Timestamp := ⟨zero⟩

end Timestamp

namespace Instant

/-- The number of seconds in a day. -/
def secondsPerDay : Int := 86400

/-- The date of an instant. -/
def date (i : Instant) : Date :=
  Date.ofDay (i.seconds / secondsPerDay)

/-- The second of the day of an instant. -/
def secondOfDay (i : Instant) : Nat :=
  (i.seconds % secondsPerDay).toNat

/-- The year of an instant has four digits and no sign. -/
def HasFourDigitYear (i : Instant) : Prop :=
  -62167219200 ≤ i.seconds ∧ i.seconds ≤ 253402300799

instance (i : Instant) : Decidable i.HasFourDigitYear := by
  unfold HasFourDigitYear; infer_instance

/-- The timestamp of an instant, or why it has none. -/
def timestamp (i : Instant) : Except TimestampFault Timestamp :=
  if year : i.HasFourDigitYear then
    if leap : i.nanos < 1_000_000_000 then
      .ok ⟨i.seconds * 1000 + (i.nanos / 1_000_000 : Nat), by
        obtain ⟨low, high⟩ := year
        have : i.nanos / 1_000_000 < 1000 := Nat.div_lt_of_lt_mul (by omega)
        constructor <;> omega⟩
    else .error .leapSecond
  else .error .yearRange

end Instant

end AgentWire
