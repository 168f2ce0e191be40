import AgentWire.Proofs.Text.Bytes
import AgentWire.Proofs.Timestamp.Range

/-!
# The order of texts — canonical texts sort as the times they name

A timestamp has seven numbers, from the year down to the millisecond, and each of them counts within
the one before it. So they tell of two timestamps which is the earlier, the first that differs
deciding. The text has the same numbers in the same order, each at its full width, where the digits of
the lower number come first:

    a < b  ↔  a.parts.fields < b.parts.fields  ↔  bytesOf a.text < bytesOf b.text

Sorting timestamps therefore is sorting their texts.
-/

namespace AgentWire

-- ── Numbers of one width ──────────────────────────────────────────────────────────

namespace Numeral

variable {width m n : Nat}

theorem digitChar_lt_iff : ∀ d < 10, ∀ e < 10, (Nat.digitChar d < Nat.digitChar e ↔ d < e) := by
  decide

theorem padded_eq_iff (hm : m < 10 ^ width) (hn : n < 10 ^ width) :
    padded width m = padded width n ↔ m = n := by
  constructor
  · intro h
    have hvalue := congrArg value h
    rwa [value_padded, value_padded, Nat.mod_eq_of_lt hm, Nat.mod_eq_of_lt hn] at hvalue
  · rintro rfl
    rfl

/-- **Numerals of one width are in the order of their numbers.** -/
theorem padded_lt_iff (hm : m < 10 ^ width) (hn : n < 10 ^ width) :
    padded width m < padded width n ↔ m < n := by
  induction width generalizing m n with
  | zero =>
      rw [Nat.lt_one_iff.mp hm, Nat.lt_one_iff.mp hn]
      exact iff_of_false (List.lt_irrefl _) (Nat.lt_irrefl 0)
  | succ width ih =>
      have hfront : m / 10 < 10 ^ width := by omega
      have hother : n / 10 < 10 ^ width := by omega
      have hlast := digitChar_lt_iff (m % 10) (Nat.mod_lt m (by decide)) (n % 10)
        (Nat.mod_lt n (by decide))
      rw [padded, padded, append_lt_append_iff (by rw [length_padded, length_padded]),
        ih hfront hother, padded_eq_iff hfront hother, List.cons_lt_cons_iff, hlast]
      simp only [List.lt_irrefl, and_false, or_false]
      omega

/-- The rest of two texts is only looked at if they begin with the same number. -/
theorem padded_append_lt_iff (hm : m < 10 ^ width) (hn : n < 10 ^ width) (rest more : List Char) :
    padded width m ++ rest < padded width n ++ more ↔ m < n ∨ m = n ∧ rest < more := by
  rw [append_lt_append_iff (by rw [length_padded, length_padded]), padded_lt_iff hm hn,
    padded_eq_iff hm hn]

end Numeral

-- ── Parts in order ────────────────────────────────────────────────────────────────

namespace TimeParts

/-- The numbers of a text, from the year to the millisecond. -/
def fields (t : TimeParts) : List Int :=
  [t.date.year, t.date.month, t.date.day, t.hour, t.minute, t.second, t.milli]

theorem mark_lt_iff (mark : Char) (rest more : List Char) :
    mark :: rest < mark :: more ↔ rest < more := by
  simp

/-- **Texts of the form are in the order of their numbers.** -/
theorem render_lt_iff {a b : TimeParts} (ha : a.Fits) (hb : b.Fits) :
    a.render < b.render ↔ a.fields < b.fields := by
  -- no year is negative, so years are in the order of their digits
  have hlow := ha.year_nonneg
  have hlow' := hb.year_nonneg
  have hyear : a.date.year.toNat < 10 ^ 4 := by
    have := ha.year_lt
    omega
  have hyear' : b.date.year.toNat < 10 ^ 4 := by
    have := hb.year_lt
    omega
  have hlt : a.date.year.toNat < b.date.year.toNat ↔ a.date.year < b.date.year := by omega
  have heq : a.date.year.toNat = b.date.year.toNat ↔ a.date.year = b.date.year := by omega
  unfold render
  simp only [List.append_assoc, List.cons_append, mark_lt_iff,
    Numeral.padded_append_lt_iff hyear hyear',
    Numeral.padded_append_lt_iff ha.month_lt hb.month_lt,
    Numeral.padded_append_lt_iff ha.day_lt hb.day_lt,
    Numeral.padded_append_lt_iff ha.hour_lt hb.hour_lt,
    Numeral.padded_append_lt_iff ha.minute_lt hb.minute_lt,
    Numeral.padded_append_lt_iff ha.second_lt hb.second_lt,
    Numeral.padded_append_lt_iff ha.milli_lt hb.milli_lt]
  unfold fields
  simp only [List.cons_lt_cons_iff, Nat.cast_lt, Nat.cast_inj, List.lt_irrefl, hlt, heq]

/-- The number of a millisecond in its day. -/
def milliOfDay (t : TimeParts) : Nat :=
  (t.hour * 3600 + t.minute * 60 + t.second) * 1000 + t.milli

theorem IsTime.milliOfDay_lt {t : TimeParts} (h : t.IsTime) (hmilli : t.milli < 10 ^ 3) :
    t.milliOfDay < 86400000 := by
  obtain ⟨-, hhour, hminute, hsecond⟩ := h
  unfold milliOfDay
  omega

/-- Times of a day are in the order of their numbers. -/
theorem milliOfDay_lt_iff {a b : TimeParts} (ha : a.IsTime) (hb : b.IsTime)
    (hmilli : a.milli < 10 ^ 3) (hmilli' : b.milli < 10 ^ 3) :
    a.milliOfDay < b.milliOfDay ↔ a.hour < b.hour ∨ a.hour = b.hour ∧ (a.minute < b.minute ∨
      a.minute = b.minute ∧ (a.second < b.second ∨ a.second = b.second ∧ a.milli < b.milli)) := by
  obtain ⟨-, -, hminute, hsecond⟩ := ha
  obtain ⟨-, -, hminute', hsecond'⟩ := hb
  unfold milliOfDay
  omega

/-- Numbers are compared by the date first, and by the time of day on one date. -/
theorem fields_lt_iff {a b : TimeParts} (ha : a.IsTime) (hb : b.IsTime)
    (hmilli : a.milli < 10 ^ 3) (hmilli' : b.milli < 10 ^ 3) :
    a.fields < b.fields ↔
      a.date.Before b.date ∨ a.date = b.date ∧ a.milliOfDay < b.milliOfDay := by
  rw [milliOfDay_lt_iff ha hb hmilli hmilli']
  obtain ⟨⟨year, month, day⟩, hour, minute, second, milli⟩ := a
  obtain ⟨⟨year', month', day'⟩, hour', minute', second', milli'⟩ := b
  unfold fields Date.Before
  simp only [List.cons_lt_cons_iff, List.lt_irrefl, Nat.cast_lt, Nat.cast_inj, Date.mk.injEq,
    and_false, or_false]
  tauto

/-- **Numbers are compared as the milliseconds that they count**, by the days of the calendar. -/
theorem fields_lt_iff_count {a b : TimeParts} (ha : a.IsTime) (hb : b.IsTime)
    (hmilli : a.milli < 10 ^ 3) (hmilli' : b.milli < 10 ^ 3) :
    a.fields < b.fields ↔
      a.date.toDay * 86400000 + a.milliOfDay < b.date.toDay * 86400000 + b.milliOfDay := by
  have hday := ha.milliOfDay_lt hmilli
  have hday' := hb.milliOfDay_lt hmilli'
  rw [fields_lt_iff ha hb hmilli hmilli', ← Date.toDay_lt_iff ha.date hb.date,
    ← Date.toDay_inj ha.date hb.date]
  omega

end TimeParts

-- ── Timestamps in order ───────────────────────────────────────────────────────────

namespace Timestamp

/-- The parts of a timestamp. -/
def parts (t : Timestamp) : TimeParts :=
  TimeParts.ofInstant t.instant

theorem toList_text (t : Timestamp) : t.text.toList = t.parts.render :=
  String.toList_ofList

theorem isTime_parts (t : Timestamp) : t.parts.IsTime :=
  (TimeParts.instant_ofInstant (Instant.timestamp_eq_ok_iff.mp (timestamp_instant t)).2.1).1

theorem fits_parts (t : Timestamp) : t.parts.Fits := by
  obtain ⟨hyear, hleap, -⟩ := Instant.timestamp_eq_ok_iff.mp (timestamp_instant t)
  obtain ⟨htime, hmilli, -⟩ := TimeParts.instant_ofInstant hleap
  exact htime.fits (Instant.hasFourDigitYear_iff.mp hyear) (by omega)

/-- A timestamp counts the days of its date and the milliseconds of its time of day. -/
theorem millis_eq_count (t : Timestamp) :
    t.millis = t.parts.date.toDay * 86400000 + t.parts.milliOfDay := by
  obtain ⟨-, hleap, hmillis⟩ := Instant.timestamp_eq_ok_iff.mp (timestamp_instant t)
  obtain ⟨htime, hmilli, hseconds⟩ := TimeParts.instant_ofInstant hleap
  obtain ⟨hday, hsecond, -⟩ := TimeParts.instant_eq htime
  unfold Instant.secondOfDay at hsecond
  unfold Instant.secondsPerDay at hday hsecond
  rw [hseconds] at hday hsecond
  unfold parts TimeParts.milliOfDay
  omega

/-- **TIMESTAMPS ARE IN THE ORDER OF THEIR NUMBERS**, the first that differs deciding. -/
theorem lt_iff_fields (a b : Timestamp) : a < b ↔ a.parts.fields < b.parts.fields := by
  rw [TimeParts.fields_lt_iff_count a.isTime_parts b.isTime_parts a.fits_parts.milli_lt
    b.fits_parts.milli_lt, ← millis_eq_count, ← millis_eq_count]
  exact Iff.rfl

/-- **TEXTS ARE IN THE ORDER OF THE TIMES THAT THEY NAME.** -/
theorem bytesOf_text_lt_iff (a b : Timestamp) : bytesOf a.text < bytesOf b.text ↔ a < b := by
  rw [bytesOf_lt_iff, String.lt_iff, toList_text, toList_text,
    TimeParts.render_lt_iff a.fits_parts b.fits_parts, lt_iff_fields]

theorem bytesOf_text_le_iff (a b : Timestamp) : bytesOf a.text ≤ bytesOf b.text ↔ a ≤ b := by
  rw [← List.not_lt, bytesOf_text_lt_iff]
  exact Int.not_lt

-- ── Sorting ───────────────────────────────────────────────────────────────────────

/-- **CANONICAL TEXTS SORT AS THE TIMES THEY NAME.** Timestamps are ordered as the numbers in their
    texts from the year on, as the bytes of their texts and as their milliseconds; so sorting texts
    that are accepted is sorting what they are read as. -/
theorem texts_sort_as_times :
    (∀ a b : Timestamp, (a < b ↔ a.parts.fields < b.parts.fields) ∧
      (a < b ↔ bytesOf a.text < bytesOf b.text) ∧ (a < b ↔ a.millis < b.millis)) ∧
    (∀ texts : List String, (∀ text ∈ texts, ∃ t, parse text = .ok t) →
      ∃ stamps, texts.mapM parse = .ok stamps ∧
        (stamps.mergeSort fun a b => a ≤ b).map Timestamp.text =
          texts.mergeSort fun s t => bytesOf s ≤ bytesOf t) := by
  refine ⟨?_, ?_⟩
  · intro a b
    exact ⟨lt_iff_fields a b, (bytesOf_text_lt_iff a b).symm, Iff.rfl⟩
  · intro texts haccepted
    obtain ⟨stamps, hstamps, rfl⟩ := exists_mapM_of_inverse fun text hmem =>
      (haccepted text hmem).imp fun _ ht => ⟨ht, text_of_parse ht⟩
    refine ⟨stamps, hstamps, List.map_mergeSort ?_⟩
    intro a _ b _
    exact decide_eq_decide.mpr (bytesOf_text_le_iff a b).symm

/-- The last millisecond of a leap day comes before the first of the next month, as a time and as a
    text, and is sorted before it. -/
theorem texts_sort_as_times_leap :
    bytesOf "2024-02-29T23:59:59.999Z" < bytesOf "2024-03-01T00:00:00.000Z" ∧
    ∃ stamps, ["2024-03-01T00:00:00.000Z", "2024-02-29T23:59:59.999Z"].mapM parse = .ok stamps ∧
      (stamps.mergeSort fun a b => a ≤ b).map Timestamp.text =
        ["2024-02-29T23:59:59.999Z", "2024-03-01T00:00:00.000Z"] := by
  obtain ⟨horder, hsort⟩ := texts_sort_as_times
  have hleap : parse "2024-02-29T23:59:59.999Z" = .ok ⟨1709251199999, by decide⟩ := by
    decide +kernel
  have hmarch : parse "2024-03-01T00:00:00.000Z" = .ok ⟨1709251200000, by decide⟩ := by
    decide +kernel
  have hbytes : bytesOf "2024-02-29T23:59:59.999Z" < bytesOf "2024-03-01T00:00:00.000Z" := by
    rw [← text_of_parse hleap, ← text_of_parse hmarch]
    exact (horder _ _).2.1.mp (by decide)
  refine ⟨hbytes, ?_⟩
  obtain ⟨stamps, hstamps, hsorted⟩ :=
    hsort ["2024-03-01T00:00:00.000Z", "2024-02-29T23:59:59.999Z"]
      (List.forall_mem_cons.mpr ⟨⟨_, hmarch⟩, List.forall_mem_singleton.mpr ⟨_, hleap⟩⟩)
  refine ⟨stamps, hstamps, hsorted.trans ?_⟩
  have hnot : ¬bytesOf "2024-03-01T00:00:00.000Z" ≤ bytesOf "2024-02-29T23:59:59.999Z" :=
    List.not_le.mpr hbytes
  simp [List.mergeSort, hnot]

end Timestamp

end AgentWire
