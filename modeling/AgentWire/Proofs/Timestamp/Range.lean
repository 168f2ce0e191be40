import AgentWire.Proofs.Json.Reading
import AgentWire.Proofs.Timestamp.RoundTrip

/-!
# The range — which instants are timestamps

An instant is a timestamp if its year has four digits and it is in no leap second. It is counted in
nanoseconds from 1970 (`Instant.sinceEpoch`), and its timestamp in milliseconds, rounded towards the
past:

    ofInstant i = .ok t  ↔  four digits, no leap second, t.millis = i.sinceEpoch / 10^6
    ofMillis m = .ok t   ↔  t.millis = m

The nanoseconds of an instant are never negative, so dropping those below a millisecond rounds
towards the past before 1970 too. A count of milliseconds is refused by the year of its instant, and
far away because there is no instant; both lie outside the years of four digits.
-/

namespace AgentWire

-- ── Instants ──────────────────────────────────────────────────────────────────────

namespace Instant

/-- The nanoseconds from 1970 to an instant outside leap seconds. -/
def sinceEpoch (i : Instant) : Int :=
  i.seconds * 10 ^ 9 + i.nanos

/-- The seconds that are compared are those of the years from 0000 to 9999. -/
theorem hasFourDigitYear_iff {i : Instant} :
    i.HasFourDigitYear ↔ 0 ≤ i.date.year ∧ i.date.year ≤ 9999 := by
  obtain ⟨hvalid, hday⟩ := Date.toDay_ofDay (i.seconds / secondsPerDay)
  have hyear := Date.year_iff hvalid
  rw [hday] at hyear
  unfold date HasFourDigitYear
  rw [← hyear]
  unfold secondsPerDay
  omega

/-- Dropping what is below a millisecond rounds towards the past. -/
theorem millis_eq_iff {i : Instant} {millis : Int} :
    millis = i.seconds * 1000 + (i.nanos / 10 ^ 6 : Nat) ↔ millis = i.sinceEpoch / 10 ^ 6 := by
  unfold sinceEpoch
  omega

end Instant

namespace Timestamp

-- ── Timestamps of instants ────────────────────────────────────────────────────────

/-- **The timestamp of an instant is the instant in whole milliseconds.** -/
theorem ofInstant_eq_ok_iff {i : Instant} {t : Timestamp} :
    ofInstant i = .ok t ↔
      (0 ≤ i.date.year ∧ i.date.year ≤ 9999) ∧ i.nanos < 10 ^ 9 ∧
        t.millis = i.sinceEpoch / 10 ^ 6 := by
  unfold ofInstant
  rw [mapError_eq_ok_iff, Instant.timestamp_eq_ok_iff, Instant.hasFourDigitYear_iff,
    Instant.millis_eq_iff]

/-- **Instants of four-digit years have a timestamp**, but not inside a leap second. -/
theorem exists_ofInstant_iff {i : Instant} :
    (∃ t, ofInstant i = .ok t) ↔ (0 ≤ i.date.year ∧ i.date.year ≤ 9999) ∧ i.nanos < 10 ^ 9 := by
  unfold ofInstant
  simp only [mapError_eq_ok_iff]
  rw [Instant.exists_timestamp_iff, Instant.hasFourDigitYear_iff]

/-- The fault of an instant carries its long form. -/
theorem exists_fault_of_ofInstant {i : Instant} {fault : Fault} (h : ofInstant i = .error fault) :
    ∃ cause, fault = .invalidTimestamp i.longText cause := by
  unfold ofInstant at h
  cases htimestamp : i.timestamp with
  | ok t =>
      rw [htimestamp] at h
      exact nomatch h
  | error cause =>
      rw [htimestamp] at h
      exact ⟨cause, (Except.error.inj h).symm⟩

-- ── Timestamps of milliseconds ────────────────────────────────────────────────────

/-- **A timestamp is made of its own milliseconds**, and of no others. -/
theorem ofMillis_eq_ok_iff {millis : Int} {t : Timestamp} :
    ofMillis millis = .ok t ↔ t.millis = millis := by
  constructor
  · intro h
    unfold ofMillis at h
    split at h
    · obtain ⟨-, -, hmillis⟩ := ofInstant_eq_ok_iff.mp h
      rw [hmillis]
      unfold Instant.sinceEpoch
      dsimp only
      omega
    · exact nomatch h
  · rintro rfl
    have hinstant : HasInstant t.millis := by
      obtain ⟨hlow, hhigh⟩ := t.inRange
      unfold HasInstant
      omega
    unfold ofMillis
    rw [if_pos hinstant]
    exact mapError_eq_ok_iff.mpr (timestamp_instant t)

/-- Milliseconds make a timestamp in the years of four digits. -/
theorem exists_ofMillis_iff {millis : Int} :
    (∃ t, ofMillis millis = .ok t) ↔ InFourDigitYears millis := by
  simp only [ofMillis_eq_ok_iff]
  constructor
  · rintro ⟨t, rfl⟩
    exact t.inRange
  · intro h
    exact ⟨⟨millis, h⟩, rfl⟩

/-- Milliseconds that make no timestamp are refused as a time, by the long form of their instant or,
    where there is none, as a number. -/
theorem exists_fault_of_ofMillis {millis : Int} {fault : Fault}
    (h : ofMillis millis = .error fault) : ∃ text cause, fault = .invalidTimestamp text cause := by
  unfold ofMillis at h
  split at h
  · obtain ⟨cause, hfault⟩ := exists_fault_of_ofInstant h
    exact ⟨_, cause, hfault⟩
  · exact ⟨_, _, (Except.error.inj h).symm⟩

/-- The milliseconds of a timestamp are those of the instant at which it stands. -/
theorem millis_eq_sinceEpoch (t : Timestamp) : t.millis = t.instant.sinceEpoch / 10 ^ 6 :=
  (ofInstant_eq_ok_iff.mp (mapError_eq_ok_iff.mpr (timestamp_instant t))).2.2

/-- The first timestamp. -/
def first : Timestamp := ⟨-62167219200000, by decide⟩

/-- The last timestamp. -/
def last : Timestamp := ⟨253402300799999, by decide⟩

/-- The first and the last timestamp stand at the ends of the years of four digits. -/
theorem text_first_last :
    first.text = "0000-01-01T00:00:00.000Z" ∧ last.text = "9999-12-31T23:59:59.999Z" := by
  have hfirst : parse "0000-01-01T00:00:00.000Z" = .ok first := by decide +kernel
  have hlast : parse "9999-12-31T23:59:59.999Z" = .ok last := by decide +kernel
  exact ⟨text_of_parse hfirst, text_of_parse hlast⟩

/-- **MILLISECONDS AND TIMESTAMPS CORRESPOND** on exactly the range from 0000-01-01T00:00:00.000Z to
    9999-12-31T23:59:59.999Z, and anything else is refused as a time. An instant outside leap seconds
    has a timestamp exactly if its year is among these, in milliseconds rounded towards the past; one
    in a leap second never has. -/
theorem millis_correspond :
    (∀ millis : Int, (∃ t, ofMillis millis = .ok t) ↔
      -62167219200000 ≤ millis ∧ millis ≤ 253402300799999) ∧
    (∀ millis : Int, (¬∃ t, ofMillis millis = .ok t) →
      ∃ text cause, ofMillis millis = .error (.invalidTimestamp text cause)) ∧
    (∀ (millis : Int) (t : Timestamp), ofMillis millis = .ok t → t.millis = millis) ∧
    (∀ t : Timestamp, ofMillis t.millis = .ok t ∧ t.millis = t.instant.sinceEpoch / 10 ^ 6) ∧
    (∃ t t', ofMillis (-62167219200000) = .ok t ∧ t.text = "0000-01-01T00:00:00.000Z" ∧
      ofMillis 253402300799999 = .ok t' ∧ t'.text = "9999-12-31T23:59:59.999Z") ∧
    (∀ i : Instant, i.nanos < 10 ^ 9 →
      ((∃ t, ofInstant i = .ok t) ↔ 0 ≤ i.date.year ∧ i.date.year ≤ 9999)) ∧
    (∀ (i : Instant) (t : Timestamp), ofInstant i = .ok t →
      t.millis = (i.seconds * 10 ^ 9 + i.nanos) / 10 ^ 6) ∧
    (∀ i : Instant, 10 ^ 9 ≤ i.nanos →
      ∃ cause, ofInstant i = .error (.invalidTimestamp i.longText cause)) := by
  refine ⟨?_, ?_, ?_, ?_, ?_, ?_, ?_, ?_⟩
  · intro millis
    exact exists_ofMillis_iff
  · intro millis hnone
    cases h : ofMillis millis with
    | ok t => exact absurd ⟨t, h⟩ hnone
    | error fault =>
        obtain ⟨text, cause, rfl⟩ := exists_fault_of_ofMillis h
        exact ⟨text, cause, rfl⟩
  · intro millis t h
    exact ofMillis_eq_ok_iff.mp h
  · intro t
    exact ⟨ofMillis_eq_ok_iff.mpr rfl, millis_eq_sinceEpoch t⟩
  · obtain ⟨hfirst, hlast⟩ := text_first_last
    exact ⟨first, last, ofMillis_eq_ok_iff.mpr rfl, hfirst, ofMillis_eq_ok_iff.mpr rfl, hlast⟩
  · intro i hleap
    rw [exists_ofInstant_iff]
    exact and_iff_left hleap
  · intro i t h
    exact (ofInstant_eq_ok_iff.mp h).2.2
  · intro i hleap
    cases h : ofInstant i with
    | ok t => exact absurd (ofInstant_eq_ok_iff.mp h).2.1 (Nat.not_lt.mpr hleap)
    | error fault =>
        obtain ⟨cause, rfl⟩ := exists_fault_of_ofInstant h
        exact ⟨cause, rfl⟩

/-- A nanosecond before 1970 is the millisecond before, the instant after the last timestamp has none,
    neither as milliseconds nor as an instant, and a leap second of 1972 has none either. -/
theorem millis_correspond_ends :
    (∃ t, ofInstant ⟨-1, 999999999⟩ = .ok t ∧ t.millis = -1 ∧ ofMillis (-1) = .ok t) ∧
    (∃ text cause, ofMillis 253402300800000 = .error (.invalidTimestamp text cause)) ∧
    (¬∃ t, ofInstant ⟨253402300800, 0⟩ = .ok t) ∧
    (∃ cause, ofInstant ⟨78796799, 1000000000⟩ =
      .error (.invalidTimestamp (Instant.longText ⟨78796799, 1000000000⟩) cause)) := by
  obtain ⟨hmillis, hrefused, -, hback, -, hinstant, hround, hleap⟩ := millis_correspond
  refine ⟨?_, ?_, ?_, hleap ⟨78796799, 1000000000⟩ (by decide)⟩
  · obtain ⟨t, ht⟩ := (hinstant ⟨-1, 999999999⟩ (by decide)).mpr (by decide)
    have hpast : t.millis = -1 := (hround _ t ht).trans (by decide)
    refine ⟨t, ht, hpast, ?_⟩
    rw [← hpast]
    exact (hback t).1
  · refine hrefused 253402300800000 ?_
    rw [hmillis]
    decide
  · rw [hinstant ⟨253402300800, 0⟩ (by decide)]
    decide

end Timestamp

end AgentWire
