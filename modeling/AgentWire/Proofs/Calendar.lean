import AgentWire.Calendar
import Mathlib.Tactic.IntervalCases
import Mathlib.Tactic.Ring

/-!
# Dates and days — the count of days is the calendar

A date is counted as the days of the years before its own and the days of its own year before it,
where a year begins in March. Both parts are found again in the number of the day, so numbers and
dates of the calendar correspond one to one:

    ofDay n is a date, (ofDay n).toDay = n        ofDay d.toDay = d for every date d

That the count is the one of the calendar is said by the date that follows (`next`): it is the
next day of the month, or the first of the next month, or the first of the next year, and its
number is the next number. So the numbers are in the order of the dates (`Before`).
-/

namespace AgentWire.Date

-- ── Years and months from March on ────────────────────────────────────────────────

/-- The days of the years from year 0 up to a given one, each beginning in March. -/
def daysBeforeYear (year : Int) : Int :=
  365 * year + year / 4 - year / 100 + year / 400

/-- The days of a year that begins in March: its last one may be a leap day. -/
def yearLength (year : Int) : Nat :=
  if isLeapYear (year + 1) then 366 else 365

/-- The year, beginning in March, in which a date lies. -/
def marchYear (d : Date) : Int :=
  if d.month ≤ 2 then d.year - 1 else d.year

/-- The number of the month of a date, March being number 0. -/
def marchMonth (d : Date) : Nat :=
  (d.month + 9) % 12

/-- The days between the first of March and a date. -/
def dayOfYear (d : Date) : Nat :=
  daysBeforeMonth d.marchMonth + (d.day - 1)

/-- The date so many days after the first of March of a year. -/
def ofMarch (year : Int) (inYear : Nat) : Date :=
  let month := (5 * inYear + 2) / 153
  { year := if month < 10 then year else year + 1
    month := if month < 10 then month + 3 else month - 9
    day := inYear - daysBeforeMonth month + 1 }

/-- The date that follows a date. -/
def next (d : Date) : Date :=
  if d.day < daysInMonth d.year d.month then ⟨d.year, d.month, d.day + 1⟩
  else if d.month < 12 then ⟨d.year, d.month + 1, 1⟩
  else ⟨d.year + 1, 1, 1⟩

theorem daysInMonth_pos (year : Int) (month : Nat) : 1 ≤ daysInMonth year month := by
  unfold daysInMonth
  split_ifs <;> decide

theorem daysInMonth_le (year : Int) (month : Nat) : daysInMonth year month ≤ 31 := by
  unfold daysInMonth
  split_ifs <;> decide

theorem isLeapYear_iff (year : Int) :
    isLeapYear year = true ↔ year % 4 = 0 ∧ (year % 100 ≠ 0 ∨ year % 400 = 0) := by
  simp [isLeapYear]

theorem yearLength_eq (year : Int) :
    yearLength year = 366 ∧ isLeapYear (year + 1) = true ∨
      yearLength year = 365 ∧ isLeapYear (year + 1) = false := by
  unfold yearLength
  cases isLeapYear (year + 1) with
  | true => exact .inl ⟨rfl, rfl⟩
  | false => exact .inr ⟨rfl, rfl⟩

/-- A year is followed by the next as soon as its days are over. -/
theorem daysBeforeYear_succ (year : Int) :
    daysBeforeYear (year + 1) = daysBeforeYear year + yearLength year := by
  unfold daysBeforeYear
  rcases yearLength_eq year with ⟨hlength, hleap⟩ | ⟨hlength, hleap⟩
  · rw [isLeapYear_iff] at hleap
    omega
  · have hnot := mt (isLeapYear_iff (year + 1)).mpr (Bool.eq_false_iff.mp hleap)
    omega

/-- Later years have more days before them. -/
theorem daysBeforeYear_le {year later : Int} (h : year ≤ later) :
    daysBeforeYear year ≤ daysBeforeYear later := by
  unfold daysBeforeYear
  omega

/-- The days before a year, by its place in four centuries, in one of them and in four years. -/
theorem daysBeforeYear_parts (era : Int) {century cycle yearOfCycle : Nat} (hcentury : century ≤ 3)
    (hcycle : cycle ≤ 24) (hyear : yearOfCycle ≤ 3) :
    daysBeforeYear (era * 400 + 100 * century + 4 * cycle + yearOfCycle) =
      146097 * era + 36524 * century + 1461 * cycle + 365 * yearOfCycle := by
  have hfour : (era * 400 + 100 * century + 4 * cycle + yearOfCycle) / 4 =
      100 * era + 25 * century + cycle := by omega
  have hhundred : (era * 400 + 100 * century + 4 * cycle + yearOfCycle) / 100 =
      4 * era + century := by omega
  have hfourHundred : (era * 400 + 100 * century + 4 * cycle + yearOfCycle) / 400 = era := by omega
  unfold daysBeforeYear
  rw [hfour, hhundred, hfourHundred]
  ring

/-- A month other than February is followed by the next as soon as its days are over. -/
theorem daysBeforeMonth_succ (year : Int) {month : Nat} (hlow : 1 ≤ month) (hhigh : month ≤ 12)
    (hfebruary : month ≠ 2) :
    daysBeforeMonth ((month + 9) % 12 + 1) =
      daysBeforeMonth ((month + 9) % 12) + daysInMonth year month := by
  interval_cases month <;> first | rfl | exact absurd rfl hfebruary

/-- Later months have more days before them. -/
theorem daysBeforeMonth_le {month later : Nat} (h : month ≤ later) :
    daysBeforeMonth month ≤ daysBeforeMonth later := by
  unfold daysBeforeMonth
  omega

/-- The month in which a day of the year lies is the one whose days it is among. -/
theorem daysBeforeMonth_le_lt (inYear : Nat) :
    daysBeforeMonth ((5 * inYear + 2) / 153) ≤ inYear ∧
      inYear < daysBeforeMonth ((5 * inYear + 2) / 153 + 1) := by
  unfold daysBeforeMonth
  omega

theorem month_eq_of_le_of_lt {month inYear : Nat} (hlow : daysBeforeMonth month ≤ inYear)
    (hhigh : inYear < daysBeforeMonth (month + 1)) : (5 * inYear + 2) / 153 = month := by
  unfold daysBeforeMonth at hlow hhigh
  omega

-- ── A date in its year ────────────────────────────────────────────────────────────

/-- **A date is counted as the years before its own and the days before it in its year.** -/
theorem toDay_eq {d : Date} (h : d.IsValid) :
    d.toDay = daysBeforeYear d.marchYear + d.dayOfYear - epochOffset := by
  obtain ⟨-, -, hday, -⟩ := h
  unfold toDay daysBeforeYear dayOfYear marchYear marchMonth
  dsimp only
  omega

/-- A date in February lies in the last month of its year, with which the year is over. -/
theorem of_february {d : Date} (h : d.month = 2) :
    d.marchMonth = 11 ∧ d.dayOfYear = 337 + (d.day - 1) ∧ d.marchYear + 1 = d.year ∧
      yearLength d.marchYear = 337 + daysInMonth d.year d.month := by
  have hmarch : d.marchMonth = 11 := by
    unfold marchMonth
    rw [h]
  have hyear : d.marchYear + 1 = d.year := by
    unfold marchYear
    rw [h, if_pos (Nat.le_refl 2)]
    exact Int.sub_add_cancel d.year 1
  refine ⟨hmarch, ?_, hyear, ?_⟩
  · unfold dayOfYear
    rw [hmarch]
    rfl
  · rw [yearLength, daysInMonth, if_pos h, hyear]
    by_cases hleap : isLeapYear d.year = true
    · rw [if_pos hleap, if_pos hleap]
    · rw [if_neg hleap, if_neg hleap]

/-- A date is before the end of its month and before the end of its year. -/
theorem dayOfYear_lt {d : Date} (h : d.IsValid) :
    d.dayOfYear < daysBeforeMonth (d.marchMonth + 1) ∧ d.dayOfYear < yearLength d.marchYear := by
  have hyear := yearLength_eq d.marchYear
  by_cases hfebruary : d.month = 2
  · obtain ⟨hmarch, hplace, -, hlength⟩ := of_february hfebruary
    obtain ⟨-, -, hday, hlast⟩ := h
    have hend : daysBeforeMonth (11 + 1) = 367 := rfl
    rw [hmarch]
    omega
  · obtain ⟨hlow, hhigh, hday, hlast⟩ := h
    have hnext : daysBeforeMonth (d.marchMonth + 1) =
        daysBeforeMonth d.marchMonth + daysInMonth d.year d.month :=
      daysBeforeMonth_succ d.year hlow hhigh hfebruary
    have hmonth : d.marchMonth + 1 ≤ 11 := by
      unfold marchMonth
      omega
    have hend := daysBeforeMonth_le hmonth
    have hfirst : daysBeforeMonth 11 = 337 := rfl
    unfold dayOfYear
    omega

/-- **A date is found again from its year and its place in it.** -/
theorem ofMarch_dayOfYear {d : Date} (h : d.IsValid) : ofMarch d.marchYear d.dayOfYear = d := by
  have hmonth : (5 * d.dayOfYear + 2) / 153 = d.marchMonth :=
    month_eq_of_le_of_lt (Nat.le_add_right _ _) (dayOfYear_lt h).1
  obtain ⟨hlow, hhigh, hday, -⟩ := h
  have hday' : d.dayOfYear - daysBeforeMonth d.marchMonth + 1 = d.day := by
    unfold dayOfYear
    omega
  unfold ofMarch
  rw [hmonth]
  dsimp only
  rw [hday']
  by_cases hearly : d.month ≤ 2
  · -- January and February belong to the year before
    have hlate : ¬d.marchMonth < 10 := by
      unfold marchMonth
      omega
    rw [if_neg hlate, if_neg hlate, marchYear, if_pos hearly, marchMonth]
    have hyear : d.year - 1 + 1 = d.year := Int.sub_add_cancel d.year 1
    have hback : (d.month + 9) % 12 - 9 = d.month := by omega
    rw [hyear, hback]
  · have hlate : d.marchMonth < 10 := by
      unfold marchMonth
      omega
    rw [if_pos hlate, if_pos hlate, marchYear, if_neg hearly, marchMonth]
    have hback : (d.month + 9) % 12 + 3 = d.month := by omega
    rw [hback]

/-- A place in one of the first ten months is that of a date in the same year. -/
theorem ofMarch_early {year : Int} {inYear : Nat} (h : (5 * inYear + 2) / 153 < 10) :
    ofMarch year inYear = ⟨year, (5 * inYear + 2) / 153 + 3,
      inYear - daysBeforeMonth ((5 * inYear + 2) / 153) + 1⟩ := by
  unfold ofMarch
  dsimp only
  rw [if_pos h, if_pos h]

/-- A place in one of the last two months is that of a date in the next year. -/
theorem ofMarch_late {year : Int} {inYear : Nat} (h : ¬(5 * inYear + 2) / 153 < 10) :
    ofMarch year inYear = ⟨year + 1, (5 * inYear + 2) / 153 - 9,
      inYear - daysBeforeMonth ((5 * inYear + 2) / 153) + 1⟩ := by
  unfold ofMarch
  dsimp only
  rw [if_neg h, if_neg h]

/-- A date that is made of a place in a year lies at that place. -/
theorem of_ofMarch {year : Int} {inYear : Nat} (h : inYear < yearLength year) :
    (ofMarch year inYear).marchYear = year ∧
      (ofMarch year inYear).marchMonth = (5 * inYear + 2) / 153 ∧
      (ofMarch year inYear).dayOfYear = inYear := by
  have hlow := (daysBeforeMonth_le_lt inYear).1
  have hyear := yearLength_eq year
  unfold dayOfYear marchMonth marchYear
  by_cases hearly : (5 * inYear + 2) / 153 < 10
  · rw [ofMarch_early hearly]
    dsimp only
    have hmonth : ((5 * inYear + 2) / 153 + 3 + 9) % 12 = (5 * inYear + 2) / 153 := by omega
    rw [hmonth, if_neg (by omega)]
    exact ⟨rfl, rfl, by omega⟩
  · rw [ofMarch_late hearly]
    dsimp only
    have hmonth : ((5 * inYear + 2) / 153 - 9 + 9) % 12 = (5 * inYear + 2) / 153 := by omega
    rw [hmonth, if_pos (by omega)]
    exact ⟨Int.add_sub_cancel year 1, rfl, by omega⟩

/-- **A place in a year is that of a date of the calendar.** -/
theorem isValid_ofMarch {year : Int} {inYear : Nat} (h : inYear < yearLength year) :
    (ofMarch year inYear).IsValid := by
  obtain ⟨hlow, hnext⟩ := daysBeforeMonth_le_lt inYear
  have hmonth : ((ofMarch year inYear).month + 9) % 12 = (5 * inYear + 2) / 153 :=
    (of_ofMarch h).2.1
  have hday : (ofMarch year inYear).day =
      inYear - daysBeforeMonth ((5 * inYear + 2) / 153) + 1 := rfl
  have hyear := yearLength_eq year
  have hmonths : 1 ≤ (ofMarch year inYear).month ∧ (ofMarch year inYear).month ≤ 12 := by
    by_cases hearly : (5 * inYear + 2) / 153 < 10
    · rw [ofMarch_early hearly]
      dsimp only
      omega
    · rw [ofMarch_late hearly]
      dsimp only
      omega
  refine ⟨hmonths.1, hmonths.2, Nat.le_add_left 1 _, ?_⟩
  by_cases hfebruary : (ofMarch year inYear).month = 2
  · -- February is last in the year from March on, and as long as what is left of it
    rw [hfebruary] at hmonth
    have hfirst : daysBeforeMonth 11 = 337 := rfl
    have hsame : (ofMarch year inYear).year = year + 1 := by
      rw [ofMarch_late (by omega)]
    rw [hday, daysInMonth, if_pos hfebruary, hsame, ← hmonth, hfirst]
    unfold yearLength at h
    by_cases hleap : isLeapYear (year + 1) = true
    · rw [if_pos hleap] at h ⊢
      omega
    · rw [if_neg hleap] at h ⊢
      omega
  · -- any other month ends where the next one begins
    have hsucc := daysBeforeMonth_succ (ofMarch year inYear).year hmonths.1 hmonths.2 hfebruary
    rw [hmonth] at hsucc
    omega

-- ── One to one ────────────────────────────────────────────────────────────────────

/-- The date of a number is a place in a year, that many days after the epoch. -/
theorem exists_place (number : Int) :
    ∃ (year : Int) (inYear : Nat), inYear < yearLength year ∧
      number = daysBeforeYear year + inYear - epochOffset ∧ ofDay number = ofMarch year inYear := by
  refine ⟨_, _, ?_, ?_, rfl⟩
  · generalize number + epochOffset = day
    rcases yearLength_eq _ with ⟨hlength, -⟩ | ⟨hlength, hleap⟩
    · rw [hlength]
      omega
    · rw [hlength]
      have hnot := mt (isLeapYear_iff _).mpr (Bool.eq_false_iff.mp hleap)
      omega
  · rw [daysBeforeYear_parts _ (by omega) (by omega) (by omega)]
    omega

/-- **EVERY NUMBER IS THAT OF ITS DATE**, which is a date of the calendar. -/
theorem toDay_ofDay (number : Int) : (ofDay number).IsValid ∧ (ofDay number).toDay = number := by
  obtain ⟨year, inYear, hlt, hnumber, hdate⟩ := exists_place number
  have hvalid := isValid_ofMarch hlt
  obtain ⟨hyear, -, hplace⟩ := of_ofMarch hlt
  rw [hdate, toDay_eq hvalid, hyear, hplace]
  exact ⟨hvalid, hnumber.symm⟩

/-- A place in a year has a lower number than later places in it and those of later years. -/
theorem place_lt {year other : Int} {inYear inOther : Nat} (h : inYear < yearLength year)
    (hlt : year < other ∨ year = other ∧ inYear < inOther) :
    daysBeforeYear year + inYear < daysBeforeYear other + inOther := by
  have hend := daysBeforeYear_succ year
  rcases hlt with hyear | ⟨rfl, hplace⟩
  · have hle := daysBeforeYear_le (show year + 1 ≤ other from hyear)
    omega
  · omega

/-- Two places with one number are one place. -/
theorem place_unique {year other : Int} {inYear inOther : Nat} (h : inYear < yearLength year)
    (hother : inOther < yearLength other)
    (heq : daysBeforeYear year + inYear = daysBeforeYear other + inOther) :
    year = other ∧ inYear = inOther := by
  have hyears : year = other := by
    rcases Int.lt_trichotomy year other with hlt | hsame | hgt
    · exact absurd (place_lt h (.inl hlt)) (not_lt.mpr heq.ge)
    · exact hsame
    · exact absurd (place_lt hother (.inl hgt)) (not_lt.mpr heq.le)
  subst hyears
  exact ⟨rfl, by omega⟩

/-- **EVERY DATE OF THE CALENDAR IS THAT OF ITS NUMBER.** -/
theorem ofDay_toDay {d : Date} (h : d.IsValid) : ofDay d.toDay = d := by
  obtain ⟨year, inYear, hlt, hnumber, hdate⟩ := exists_place d.toDay
  rw [toDay_eq h] at hnumber
  obtain ⟨hyear, hplace⟩ := place_unique (dayOfYear_lt h).2 hlt (by omega)
  rw [hdate, ← hyear, ← hplace, ofMarch_dayOfYear h]

-- ── Four-digit years ──────────────────────────────────────────────────────────────

/-- The first two months of a calendar year are the end of a year that begins in March. -/
theorem dayOfYear_early {d : Date} (h : d.IsValid) :
    d.month ≤ 2 ∧ d.marchYear = d.year - 1 ∧ 306 ≤ d.dayOfYear ∨
      2 < d.month ∧ d.marchYear = d.year ∧ d.dayOfYear < 306 := by
  have hend := (dayOfYear_lt h).1
  have hjanuary : daysBeforeMonth 10 = 306 := rfl
  obtain ⟨hlow, hhigh, -, -⟩ := h
  by_cases hearly : d.month ≤ 2
  · have hmonth : 10 ≤ d.marchMonth := by
      unfold marchMonth
      omega
    have hle := daysBeforeMonth_le hmonth
    refine .inl ⟨hearly, if_pos hearly, ?_⟩
    unfold dayOfYear
    omega
  · have hmonth : d.marchMonth + 1 ≤ 10 := by
      unfold marchMonth
      omega
    have hle := daysBeforeMonth_le hmonth
    exact .inr ⟨not_le.mp hearly, if_neg hearly, by omega⟩

/-- The years before year 0 are the days before its first. -/
theorem toDay_nonneg_iff {d : Date} (h : d.IsValid) : -719528 ≤ d.toDay ↔ 0 ≤ d.year := by
  have hyear := yearLength_eq d.marchYear
  have hlt := (dayOfYear_lt h).2
  have hend := daysBeforeYear_succ d.marchYear
  have hzero : daysBeforeYear 0 = 0 ∧ daysBeforeYear (-1) = -366 := ⟨rfl, rfl⟩
  rw [toDay_eq h]
  unfold epochOffset
  rcases dayOfYear_early h with ⟨-, hmarch, hplace⟩ | ⟨-, hmarch, hplace⟩
  · by_cases hsign : 0 ≤ d.year
    · have hle := daysBeforeYear_le (show -1 ≤ d.marchYear by omega)
      omega
    · have hle := daysBeforeYear_le (show d.marchYear + 1 ≤ -1 by omega)
      omega
  · by_cases hsign : 0 ≤ d.year
    · have hle := daysBeforeYear_le (show 0 ≤ d.marchYear by omega)
      omega
    · have hle := daysBeforeYear_le (show d.marchYear ≤ -1 by omega)
      omega

/-- The years after year 9999 are the days after its last. -/
theorem toDay_le_iff {d : Date} (h : d.IsValid) : d.toDay ≤ 2932896 ↔ d.year ≤ 9999 := by
  have hyear := yearLength_eq d.marchYear
  have hlt := (dayOfYear_lt h).2
  have hend := daysBeforeYear_succ d.marchYear
  have hlast : daysBeforeYear 9999 = 3652059 ∧ daysBeforeYear 10000 = 3652425 := ⟨rfl, rfl⟩
  rw [toDay_eq h]
  unfold epochOffset
  rcases dayOfYear_early h with ⟨-, hmarch, hplace⟩ | ⟨-, hmarch, hplace⟩
  · by_cases hlong : d.year ≤ 9999
    · have hle := daysBeforeYear_le (show d.marchYear + 1 ≤ 9999 by omega)
      omega
    · have hle := daysBeforeYear_le (show 9999 ≤ d.marchYear by omega)
      omega
  · by_cases hlong : d.year ≤ 9999
    · have hle := daysBeforeYear_le (show d.marchYear ≤ 9999 by omega)
      omega
    · have hle := daysBeforeYear_le (show 10000 ≤ d.marchYear by omega)
      omega

/-- **The years of four digits are the days from 0000-01-01 to 9999-12-31.** -/
theorem year_iff {d : Date} (h : d.IsValid) :
    -719528 ≤ d.toDay ∧ d.toDay ≤ 2932896 ↔ 0 ≤ d.year ∧ d.year ≤ 9999 :=
  and_congr (toDay_nonneg_iff h) (toDay_le_iff h)

-- ── From one date to the next ─────────────────────────────────────────────────────

/-- A date is followed by a date. -/
theorem isValid_next {d : Date} (h : d.IsValid) : d.next.IsValid := by
  obtain ⟨hlow, hhigh, hday, hlast⟩ := h
  unfold next
  by_cases hmore : d.day < daysInMonth d.year d.month
  · rw [if_pos hmore]
    exact ⟨hlow, hhigh, Nat.le_add_left 1 _, hmore⟩
  · rw [if_neg hmore]
    by_cases hmonth : d.month < 12
    · rw [if_pos hmonth]
      exact ⟨Nat.le_add_left 1 _, hmonth, Nat.le_refl 1, daysInMonth_pos _ _⟩
    · rw [if_neg hmonth]
      exact ⟨Nat.le_refl 1, Nat.le_add_left 1 11, Nat.le_refl 1, daysInMonth_pos _ _⟩

/-- Within a month the date that follows has the next place in the year. -/
theorem place_next_of_lt {d : Date} (h : d.IsValid) (hmore : d.day < daysInMonth d.year d.month) :
    d.next.marchYear = d.marchYear ∧ d.next.dayOfYear = d.dayOfYear + 1 := by
  obtain ⟨-, -, hday, -⟩ := h
  have hsame : d.next = ⟨d.year, d.month, d.day + 1⟩ := if_pos hmore
  rw [hsame]
  constructor
  · rfl
  · show daysBeforeMonth d.marchMonth + d.day = daysBeforeMonth d.marchMonth + (d.day - 1) + 1
    omega

/-- At the end of February a year that begins in March is over. -/
theorem place_next_of_february {d : Date} (hend : ¬d.day < daysInMonth d.year d.month)
    (hfebruary : d.month = 2) :
    d.next.marchYear = d.marchYear + 1 ∧ d.next.dayOfYear = 0 := by
  have hmarch : d.next = ⟨d.year, 3, 1⟩ := by
    unfold next
    rw [if_neg hend, hfebruary]
    rfl
  rw [hmarch]
  constructor
  · rw [marchYear, marchYear, hfebruary]
    exact (Int.sub_add_cancel d.year 1).symm
  · show daysBeforeMonth ((3 + 9) % 12) + (1 - 1) = 0
    decide

/-- At the end of any other month the date that follows has the next place in the year. -/
theorem place_next_of_month_end {d : Date} (h : d.IsValid)
    (hend : ¬d.day < daysInMonth d.year d.month) (hfebruary : d.month ≠ 2) :
    d.next.marchYear = d.marchYear ∧ d.next.dayOfYear = d.dayOfYear + 1 := by
  obtain ⟨hlow, hhigh, hday, hlast⟩ := h
  have hmonth : d.next.marchYear = d.marchYear ∧ d.next.marchMonth = d.marchMonth + 1 ∧
      d.next.day = 1 := by
    unfold next marchYear marchMonth
    rw [if_neg hend]
    by_cases hdecember : d.month < 12
    · rw [if_pos hdecember]
      dsimp only
      refine ⟨?_, by omega, rfl⟩
      split_ifs <;> omega
    · -- January follows December in the same year from March on
      rw [if_neg hdecember]
      dsimp only
      refine ⟨?_, by omega, rfl⟩
      rw [if_neg (show ¬d.month ≤ 2 by omega)]
      exact Int.add_sub_cancel d.year 1
  obtain ⟨hyear, hlater, hfirst⟩ := hmonth
  have hsucc : daysBeforeMonth (d.marchMonth + 1) =
      daysBeforeMonth d.marchMonth + daysInMonth d.year d.month :=
    daysBeforeMonth_succ d.year hlow hhigh hfebruary
  refine ⟨hyear, ?_⟩
  unfold dayOfYear
  rw [hlater, hfirst]
  omega

/-- **THE DATE THAT FOLLOWS HAS THE NEXT NUMBER.** -/
theorem toDay_next {d : Date} (h : d.IsValid) : d.next.toDay = d.toDay + 1 := by
  rw [toDay_eq h, toDay_eq (isValid_next h)]
  by_cases hmore : d.day < daysInMonth d.year d.month
  · obtain ⟨hyear, hplace⟩ := place_next_of_lt h hmore
    rw [hyear, hplace]
    omega
  · by_cases hfebruary : d.month = 2
    · obtain ⟨hyear, hplace⟩ := place_next_of_february hmore hfebruary
      obtain ⟨-, hover, -, hlength⟩ := of_february hfebruary
      obtain ⟨-, -, hday, hlast⟩ := h
      rw [hyear, hplace, daysBeforeYear_succ]
      omega
    · obtain ⟨hyear, hplace⟩ := place_next_of_month_end h hmore hfebruary
      rw [hyear, hplace]
      omega

-- ── The order of dates ────────────────────────────────────────────────────────────

/-- A date comes before another, compared by year, then month, then day. -/
def Before (d other : Date) : Prop :=
  d.year < other.year ∨ d.year = other.year ∧
    (d.month < other.month ∨ d.month = other.month ∧ d.day < other.day)

/-- A date in an earlier month of a year that begins in March has an earlier place in it. -/
theorem dayOfYear_lt_of_marchMonth_lt {d other : Date} (h : d.IsValid)
    (hmonth : d.marchMonth < other.marchMonth) : d.dayOfYear < other.dayOfYear := by
  have hend := (dayOfYear_lt h).1
  have hle := daysBeforeMonth_le (show d.marchMonth + 1 ≤ other.marchMonth from hmonth)
  have hplace : daysBeforeMonth other.marchMonth ≤ other.dayOfYear := Nat.le_add_right _ _
  omega

/-- Of two dates of a year the one in the earlier month comes first in the years from March on. -/
theorem place_lt_of_month_lt {d other : Date} (h : d.IsValid) (h' : other.IsValid)
    (hyear : d.year = other.year) (hmonth : d.month < other.month) :
    d.marchYear < other.marchYear ∨
      d.marchYear = other.marchYear ∧ d.dayOfYear < other.dayOfYear := by
  have hlow := h.1
  have hhigh := h'.2.1
  rcases dayOfYear_early h with ⟨hearly, hmarch, -⟩ | ⟨hlate, hmarch, -⟩
  · rcases dayOfYear_early h' with ⟨hearly', hmarch', -⟩ | ⟨-, hmarch', -⟩
    · refine .inr ⟨by omega, dayOfYear_lt_of_marchMonth_lt h ?_⟩
      unfold marchMonth
      omega
    · exact .inl (by omega)
  · rcases dayOfYear_early h' with ⟨hearly', -, -⟩ | ⟨-, hmarch', -⟩
    · omega
    · refine .inr ⟨by omega, dayOfYear_lt_of_marchMonth_lt h ?_⟩
      unfold marchMonth
      omega

/-- **AN EARLIER DATE HAS A LOWER NUMBER.** -/
theorem toDay_lt_of_before {d other : Date} (h : d.IsValid) (h' : other.IsValid)
    (hbefore : d.Before other) : d.toDay < other.toDay := by
  have hplace : d.marchYear < other.marchYear ∨
      d.marchYear = other.marchYear ∧ d.dayOfYear < other.dayOfYear := by
    rcases hbefore with hyear | ⟨hyear, hmonth | ⟨hmonth, hday⟩⟩
    · -- the years from March on differ, unless the later date is in January or February
      rcases dayOfYear_early h with ⟨-, hmarch, -⟩ | ⟨-, hmarch, hend⟩
      · rcases dayOfYear_early h' with ⟨-, hmarch', -⟩ | ⟨-, hmarch', -⟩
        · exact .inl (by omega)
        · exact .inl (by omega)
      · rcases dayOfYear_early h' with ⟨-, hmarch', hstart⟩ | ⟨-, hmarch', -⟩
        · omega
        · exact .inl (by omega)
    · exact place_lt_of_month_lt h h' hyear hmonth
    · have hfirst := h.2.2.1
      unfold marchYear dayOfYear marchMonth
      rw [hyear, hmonth]
      exact .inr ⟨rfl, by omega⟩
  have hlt := place_lt (dayOfYear_lt h).2 hplace
  rw [toDay_eq h, toDay_eq h']
  omega

theorem before_or_eq_or_before (d other : Date) : d.Before other ∨ d = other ∨ other.Before d := by
  obtain ⟨year, month, day⟩ := d
  obtain ⟨year', month', day'⟩ := other
  unfold Before
  simp only [mk.injEq]
  omega

/-- **DATES ARE ORDERED AS THEIR NUMBERS ARE.** -/
theorem toDay_lt_iff {d other : Date} (h : d.IsValid) (h' : other.IsValid) :
    d.toDay < other.toDay ↔ d.Before other := by
  refine ⟨?_, toDay_lt_of_before h h'⟩
  intro hlt
  rcases before_or_eq_or_before d other with hbefore | rfl | hafter
  · exact hbefore
  · exact absurd hlt (Int.lt_irrefl _)
  · exact absurd (toDay_lt_of_before h' h hafter) (Int.lt_asymm hlt)

/-- Different dates have different numbers. -/
theorem toDay_inj {d other : Date} (h : d.IsValid) (h' : other.IsValid) :
    d.toDay = other.toDay ↔ d = other := by
  constructor
  · intro heq
    rw [← ofDay_toDay h, heq, ofDay_toDay h']
  · rintro rfl
    rfl

end AgentWire.Date
