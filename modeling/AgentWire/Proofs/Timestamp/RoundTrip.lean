import AgentWire.Proofs.Calendar
import AgentWire.Proofs.Timestamp.Form

/-!
# Timestamps and texts — one to one

The parts of an instant name it again, and an instant that parts name has these parts: the days
are those of the calendar, and the time of a day is counted within one. So writing a timestamp
gives a text of the form that is read as the timestamp, and a text is read exactly when it is of
the form and names a date of the calendar and a time of day. A second 60 names an instant inside
a leap second, which no timestamp is.
-/

namespace AgentWire

namespace TimeParts

/-- There is such a date and such a time of day, not counting leap seconds. -/
structure IsTime (t : TimeParts) : Prop where
  date : t.date.IsValid
  hour : t.hour ≤ 23
  minute : t.minute ≤ 59
  second : t.second ≤ 59

-- ── Parts and instants ────────────────────────────────────────────────────────────

/-- The days and the seconds of the day of the instant that parts name. -/
theorem instant_eq {t : TimeParts} (h : t.IsTime) :
    t.instant.seconds / Instant.secondsPerDay = t.date.toDay ∧
      t.instant.secondOfDay = t.hour * 3600 + t.minute * 60 + t.second ∧
      t.instant.nanos = t.milli * 10 ^ 6 := by
  obtain ⟨-, hhour, hminute, hsecond⟩ := h
  unfold Instant.secondOfDay instant Instant.secondsPerDay
  dsimp only
  rw [if_neg (by omega)]
  refine ⟨?_, ?_, Nat.add_zero _⟩
  · omega
  · omega

/-- **The instant that parts name has these parts.** -/
theorem ofInstant_instant {t : TimeParts} (h : t.IsTime) (hmilli : t.milli < 10 ^ 3) :
    ofInstant t.instant = t := by
  obtain ⟨hday, hsecond, hnanos⟩ := instant_eq h
  have hdate : t.instant.date = t.date := by
    unfold Instant.date
    rw [hday, Date.ofDay_toDay h.date]
  obtain ⟨-, hhour, hminute, hlast⟩ := h
  unfold ofInstant
  rw [hdate, hsecond, hnanos]
  obtain ⟨date, hour, minute, second, milli⟩ := t
  dsimp only at *
  congr 1 <;> omega

/-- **The parts of an instant name it**, to the millisecond and outside leap seconds. -/
theorem instant_ofInstant {i : Instant} (h : i.nanos < 10 ^ 9) :
    (ofInstant i).IsTime ∧ (ofInstant i).milli = i.nanos / 10 ^ 6 ∧
      (ofInstant i).instant.seconds = i.seconds := by
  obtain ⟨hvalid, hday⟩ := Date.toDay_ofDay (i.seconds / Instant.secondsPerDay)
  have hrest : i.secondOfDay < 86400 := by
    unfold Instant.secondOfDay Instant.secondsPerDay
    omega
  have htime : (ofInstant i).IsTime := by
    refine ⟨hvalid, ?_, ?_, ?_⟩
    · show i.secondOfDay / 3600 ≤ 23
      omega
    · show i.secondOfDay / 60 % 60 ≤ 59
      omega
    · show i.secondOfDay % 60 + i.nanos / 10 ^ 9 ≤ 59
      omega
  refine ⟨htime, ?_, ?_⟩
  · show i.nanos / 10 ^ 6 % 1000 = i.nanos / 10 ^ 6
    omega
  · -- the second of the day is put together again from its parts
    have hdate : (ofInstant i).date.toDay = i.seconds / Instant.secondsPerDay := hday
    have hparts : (ofInstant i).hour * 3600 + (ofInstant i).minute * 60 + (ofInstant i).second =
        i.secondOfDay := by
      show i.secondOfDay / 3600 * 3600 + i.secondOfDay / 60 % 60 * 60 +
        (i.secondOfDay % 60 + i.nanos / 10 ^ 9) = i.secondOfDay
      omega
    have hmin : min (ofInstant i).second 59 = (ofInstant i).second := Nat.min_eq_left htime.second
    unfold instant
    dsimp only
    rw [hdate, hmin, hparts]
    unfold Instant.secondOfDay Instant.secondsPerDay
    omega

/-- A time of day on a date with a four-digit year fits the digits there are for it. -/
theorem IsTime.fits {t : TimeParts} (h : t.IsTime) (hyear : 0 ≤ t.date.year ∧ t.date.year ≤ 9999)
    (hmilli : t.milli < 10 ^ 3) : t.Fits := by
  obtain ⟨⟨-, hmonth, -, hday⟩, hhour, hminute, hsecond⟩ := h
  have hlong := Date.daysInMonth_le t.date.year t.date.month
  exact
    { year_nonneg := hyear.1
      year_lt := Int.lt_add_one_of_le hyear.2
      month_lt := by omega
      day_lt := by omega
      hour_lt := by omega
      minute_lt := by omega
      second_lt := by omega
      milli_lt := hmilli }

/-- The years that have four digits are those of the instants that a text can say. -/
theorem hasFourDigitYear_iff {t : TimeParts} (h : t.IsTime) :
    t.instant.HasFourDigitYear ↔ 0 ≤ t.date.year ∧ t.date.year ≤ 9999 := by
  rw [← Date.year_iff h.date]
  obtain ⟨hday, -, -⟩ := instant_eq h
  unfold Instant.HasFourDigitYear
  unfold Instant.secondsPerDay at hday
  omega

end TimeParts

namespace Instant

/-- An instant has a timestamp when its year has four digits and it is in no leap second. -/
theorem timestamp_eq_ok_iff {i : Instant} {t : Timestamp} :
    i.timestamp = .ok t ↔ i.HasFourDigitYear ∧ i.nanos < 10 ^ 9 ∧
      t.millis = i.seconds * 1000 + (i.nanos / 10 ^ 6 : Nat) := by
  unfold timestamp
  split
  · rename_i hyear
    split
    · rename_i hleap
      constructor
      · intro h
        rw [← Except.ok.inj h]
        exact ⟨hyear, hleap, rfl⟩
      · -- a timestamp is nothing but its milliseconds
        rintro ⟨-, -, hmillis⟩
        congr 1
        obtain ⟨millis, hrange⟩ := t
        dsimp only at hmillis
        subst hmillis
        rfl
    · rename_i hleap
      constructor
      · intro h
        exact nomatch h
      · rintro ⟨-, hnot, -⟩
        exact absurd hnot hleap
  · rename_i hyear
    constructor
    · intro h
      exact nomatch h
    · rintro ⟨hnot, -⟩
      exact absurd hnot hyear

/-- Instants of four-digit years have a timestamp, but not inside a leap second. -/
theorem exists_timestamp_iff {i : Instant} :
    (∃ t, i.timestamp = .ok t) ↔ i.HasFourDigitYear ∧ i.nanos < 10 ^ 9 := by
  constructor
  · rintro ⟨t, h⟩
    obtain ⟨hyear, hleap, -⟩ := timestamp_eq_ok_iff.mp h
    exact ⟨hyear, hleap⟩
  · rintro ⟨hyear, hleap⟩
    unfold timestamp
    exact ⟨_, (dif_pos hyear).trans (dif_pos hleap)⟩

end Instant

namespace Timestamp

-- ── Timestamps and instants ───────────────────────────────────────────────────────

/-- A timestamp is that of its instant. -/
theorem timestamp_instant (t : Timestamp) : t.instant.timestamp = .ok t := by
  obtain ⟨hlow, hhigh⟩ := t.inRange
  refine Instant.timestamp_eq_ok_iff.mpr ⟨⟨?_, ?_⟩, ?_, ?_⟩
  · show -62167219200 ≤ t.millis / 1000
    omega
  · show t.millis / 1000 ≤ 253402300799
    omega
  · show (t.millis % 1000).toNat * 10 ^ 6 < 10 ^ 9
    omega
  · show t.millis = t.millis / 1000 * 1000 + ((t.millis % 1000).toNat * 10 ^ 6 / 10 ^ 6 : Nat)
    omega

/-- The instant of a timestamp is the one it was made of, if that was in whole milliseconds. -/
theorem instant_eq_of_timestamp {i : Instant} {t : Timestamp} (h : i.timestamp = .ok t)
    {milli : Nat} (hnanos : i.nanos = milli * 10 ^ 6) : t.instant = i := by
  obtain ⟨-, hleap, hmillis⟩ := Instant.timestamp_eq_ok_iff.mp h
  obtain ⟨seconds, nanos⟩ := i
  unfold instant
  dsimp only at *
  congr 1 <;> omega

-- ── Reading and writing ───────────────────────────────────────────────────────────

/-- A text is read as the timestamp of the instant that its parts name. -/
theorem parse_eq_ok_iff {text : String} {t : Timestamp} :
    parse text = .ok t ↔
      ∃ parts, TimeParts.Form text.toList parts ∧ parts.IsPossible ∧
        parts.instant.timestamp = .ok t := by
  simp only [← TimeParts.read?_eq_some_iff]
  unfold parse parseChars
  cases TimeParts.read? text.toList with
  | none =>
      refine iff_of_false nofun ?_
      rintro ⟨parts, hread, -⟩
      exact nomatch hread
  | some parts =>
      simp only [Option.some.injEq, exists_eq_left']
      by_cases hpossible : parts.IsPossible
      · -- a possible date and time is refused only where its instant has no timestamp
        rw [if_pos hpossible, and_iff_right hpossible]
        cases parts.instant.timestamp with
        | error cause => exact iff_of_false nofun nofun
        | ok found =>
            show Except.ok found = Except.ok t ↔ Except.ok found = Except.ok t
            rw [Except.ok.injEq, Except.ok.injEq]
      · rw [if_neg hpossible]
        exact iff_of_false nofun fun h => hpossible h.1

/-- Whatever is wrong with a text, the fault carries it. -/
theorem exists_fault_of_parse {text : String} {fault : Fault} (h : parse text = .error fault) :
    ∃ cause, fault = .invalidTimestamp text cause := by
  unfold parse at h
  cases hparse : parseChars text.toList with
  | ok t =>
      rw [hparse] at h
      exact nomatch h
  | error cause =>
      rw [hparse] at h
      exact ⟨cause, (Except.error.inj h).symm⟩

/-- The parts of a text that is read are a time of day, and outside leap seconds. -/
theorem isTime_of_timestamp {parts : TimeParts} {t : Timestamp} (hpossible : parts.IsPossible)
    (h : parts.instant.timestamp = .ok t) : parts.IsTime := by
  obtain ⟨hdate, hhour, hminute, hsecond⟩ := hpossible
  obtain ⟨-, hleap, -⟩ := Instant.timestamp_eq_ok_iff.mp h
  refine ⟨hdate, hhour, hminute, ?_⟩
  by_contra hsixty
  have hnanos : parts.instant.nanos = parts.milli * 1_000_000 + 1_000_000_000 := by
    unfold TimeParts.instant
    dsimp only
    rw [if_pos (by omega)]
  omega

/-- **A text of the form that names a date and a time of day is read.** -/
theorem exists_parse_of_form {text : String} {parts : TimeParts}
    (hform : TimeParts.Form text.toList parts) (htime : parts.IsTime) :
    ∃ t, parse text = .ok t := by
  obtain ⟨-, hfits⟩ := hform.render_eq
  obtain ⟨-, -, hnanos⟩ := TimeParts.instant_eq htime
  have hmilli := hfits.milli_lt
  have hyear : parts.instant.HasFourDigitYear := by
    rw [TimeParts.hasFourDigitYear_iff htime]
    exact ⟨hfits.year_nonneg, Int.lt_add_one_iff.mp hfits.year_lt⟩
  have hpossible : parts.IsPossible :=
    ⟨htime.date, htime.hour, htime.minute, Nat.le_succ_of_le htime.second⟩
  obtain ⟨t, htimestamp⟩ := Instant.exists_timestamp_iff.mpr ⟨hyear, by omega⟩
  exact ⟨t, parse_eq_ok_iff.mpr ⟨parts, hform, hpossible, htimestamp⟩⟩

/-- **A text is what is written of the timestamp that it is read as.** -/
theorem text_of_parse {text : String} {t : Timestamp} (h : parse text = .ok t) :
    t.text = text := by
  obtain ⟨parts, hform, hpossible, htimestamp⟩ := parse_eq_ok_iff.mp h
  have htime := isTime_of_timestamp hpossible htimestamp
  obtain ⟨hrender, hfits⟩ := hform.render_eq
  obtain ⟨-, -, hnanos⟩ := TimeParts.instant_eq htime
  unfold Timestamp.text
  rw [instant_eq_of_timestamp htimestamp hnanos, TimeParts.ofInstant_instant htime hfits.milli_lt,
    hrender, String.ofList_toList]

/-- **What is written of a timestamp is of the form and is read as the timestamp.** -/
theorem parse_text (t : Timestamp) :
    (∃ parts, TimeParts.Form t.text.toList parts) ∧ parse t.text = .ok t := by
  have hstamp := timestamp_instant t
  obtain ⟨hyear, hleap, -⟩ := Instant.timestamp_eq_ok_iff.mp hstamp
  obtain ⟨htime, hmilli, hseconds⟩ := TimeParts.instant_ofInstant hleap
  obtain ⟨-, -, hnanos⟩ := TimeParts.instant_eq htime
  have hwhole : t.instant.nanos / 10 ^ 6 * 10 ^ 6 = t.instant.nanos := by
    show (t.millis % 1000).toNat * 10 ^ 6 / 10 ^ 6 * 10 ^ 6 = (t.millis % 1000).toNat * 10 ^ 6
    omega
  rw [hmilli, hwhole] at hnanos
  -- a timestamp has nothing below the millisecond, so its parts name the whole instant
  have hback : (TimeParts.ofInstant t.instant).instant = t.instant := by
    generalize TimeParts.ofInstant t.instant = parts at hseconds hnanos
    cases hinstant : parts.instant with
    | mk seconds nanos =>
        rw [hinstant] at hseconds hnanos
        dsimp only at hseconds hnanos
        rw [hseconds, hnanos]
  rw [← hback, TimeParts.hasFourDigitYear_iff htime] at hyear
  have hform := (htime.fits hyear (by omega)).form_render
  have htext : t.text.toList = (TimeParts.ofInstant t.instant).render := String.toList_ofList
  rw [htext]
  refine ⟨⟨_, hform⟩, parse_eq_ok_iff.mpr ⟨_, htext ▸ hform, ?_, hback.symm ▸ hstamp⟩⟩
  exact ⟨htime.date, htime.hour, htime.minute, Nat.le_succ_of_le htime.second⟩

/-- **TIMESTAMPS AND CANONICAL TEXTS CORRESPOND ONE TO ONE.** Writing gives twenty-four ASCII
    characters of the form, which are read as the timestamp; exactly the texts of the form that
    name a date of the calendar and a time of day are read, and each is what is written of what it
    is read as; and the fault of any other text carries it. -/
theorem texts_correspond :
    (∀ t : Timestamp, t.text.length = 24 ∧ (∀ c ∈ t.text.toList, c.toNat < 128) ∧
      (∃ parts, TimeParts.Form t.text.toList parts) ∧ parse t.text = .ok t) ∧
    (∀ text : String, (∃ t, parse text = .ok t) ↔
      ∃ parts, TimeParts.Form text.toList parts ∧ parts.IsTime) ∧
    (∀ (text : String) (t : Timestamp), parse text = .ok t → t.text = text) ∧
    (∀ text : String, (¬∃ t, parse text = .ok t) →
      ∃ cause, parse text = .error (.invalidTimestamp text cause)) := by
  refine ⟨?_, ?_, ?_, ?_⟩
  · intro t
    obtain ⟨⟨parts, hform⟩, hparse⟩ := parse_text t
    obtain ⟨hlength, hascii⟩ := hform.ascii
    exact ⟨hlength, hascii, ⟨parts, hform⟩, hparse⟩
  · intro text
    constructor
    · rintro ⟨t, hparse⟩
      obtain ⟨parts, hform, hpossible, htimestamp⟩ := parse_eq_ok_iff.mp hparse
      exact ⟨parts, hform, isTime_of_timestamp hpossible htimestamp⟩
    · rintro ⟨parts, hform, htime⟩
      exact exists_parse_of_form hform htime
  · intro text t hparse
    exact text_of_parse hparse
  · intro text hnone
    cases hparse : parse text with
    | ok t => exact absurd ⟨t, hparse⟩ hnone
    | error fault =>
        obtain ⟨cause, rfl⟩ := exists_fault_of_parse hparse
        exact ⟨cause, rfl⟩

/-- The last millisecond of a leap day is read and written again, and a leap second is refused. -/
theorem texts_correspond_leap :
    (∃ t, parse "2024-02-29T23:59:59.999Z" = .ok t ∧ t.text = "2024-02-29T23:59:59.999Z") ∧
    (∃ cause, parse "2016-12-31T23:59:60.000Z" =
      .error (.invalidTimestamp "2016-12-31T23:59:60.000Z" cause)) := by
  have hread : parse "2024-02-29T23:59:59.999Z" = .ok ⟨1709251199999, by decide⟩ := by
    decide +kernel
  have hrefused : parse "2016-12-31T23:59:60.000Z" =
      .error (.invalidTimestamp "2016-12-31T23:59:60.000Z" .notRepresentable) := by
    decide +kernel
  refine ⟨⟨_, hread, texts_correspond.2.2.1 _ _ hread⟩, texts_correspond.2.2.2 _ ?_⟩
  rintro ⟨t, hparse⟩
  rw [hrefused] at hparse
  exact nomatch hparse

end Timestamp

end AgentWire
