import AgentWire.Proofs.Text.Digits
import AgentWire.Timestamp.Text

/-!
# The form of a timestamp — twenty-four characters, seven numbers

`Form text t` says that a text is of the form `YYYY-MM-DDTHH:MM:SS.mmmZ` and that its numbers are
the parts `t`: each number has its full width in ASCII digits, and the marks between them stand
where they belong. Reading accepts the texts of the form, and writing produces them.

    read? text = some t  ↔  Form text t        Form text t  →  t.render = text
-/

namespace AgentWire.TimeParts

open Numeral (Digits value)

/-- A text of the form `YYYY-MM-DDTHH:MM:SS.mmmZ`, and the parts that its numbers are. -/
inductive Form : List Char → TimeParts → Prop
  | mk {year month day hour minute second milli : List Char} :
      Digits 4 year → Digits 2 month → Digits 2 day → Digits 2 hour → Digits 2 minute →
        Digits 2 second → Digits 3 milli →
          Form (year ++ '-' :: (month ++ '-' :: (day ++ 'T' :: (hour ++ ':' :: (minute ++
            ':' :: (second ++ '.' :: (milli ++ ['Z'])))))))
            ⟨⟨value year, value month, value day⟩, value hour, value minute, value second,
              value milli⟩

-- ── Reading ───────────────────────────────────────────────────────────────────────

theorem readNumber?_append {width : Nat} {digits : List Char} (h : Digits width digits)
    (rest : List Char) : readNumber? width (digits ++ rest) = some (value digits, rest) := by
  have hall : digits.all Char.isDigit = true := List.all_eq_true.mpr h.2
  unfold readNumber?
  rw [← h.1, List.take_left, List.drop_left]
  exact if_pos ⟨rfl, hall⟩

theorem exists_of_readNumber? {width n : Nat} {text rest : List Char}
    (h : readNumber? width text = some (n, rest)) :
    ∃ digits, Digits width digits ∧ text = digits ++ rest ∧ n = value digits := by
  unfold readNumber? at h
  dsimp only at h
  split at h
  · rename_i hdigits
    cases h
    exact ⟨text.take width, ⟨hdigits.1, List.all_eq_true.mp hdigits.2⟩,
      (List.take_append_drop width text).symm, rfl⟩
  · exact nomatch h

theorem readMark?_cons (mark : Char) (rest : List Char) :
    readMark? mark (mark :: rest) = some rest := by
  unfold readMark?
  exact if_pos rfl

theorem eq_of_readMark? {mark : Char} {text rest : List Char}
    (h : readMark? mark text = some rest) : text = mark :: rest := by
  cases text with
  | nil => exact nomatch h
  | cons c tail =>
      rw [readMark?] at h
      split at h
      · rename_i hmark
        rw [hmark, Option.some.inj h]
      · exact nomatch h

section Steps

variable {β : Type} {b : β}

theorem number_step {width : Nat} {digits : List Char} (h : Digits width digits)
    (rest : List Char) (f : Nat × List Char → Option β) :
    (readNumber? width (digits ++ rest) >>= f) = f (value digits, rest) := by
  rw [readNumber?_append h]
  rfl

theorem exists_of_number_step {width : Nat} {text : List Char} {f : Nat × List Char → Option β}
    (h : (readNumber? width text >>= f) = some b) :
    ∃ digits rest, Digits width digits ∧ text = digits ++ rest ∧
      f (value digits, rest) = some b := by
  obtain ⟨⟨n, rest⟩, hread, hthen⟩ := Option.bind_eq_some_iff.mp h
  obtain ⟨digits, hdigits, htext, rfl⟩ := exists_of_readNumber? hread
  exact ⟨digits, rest, hdigits, htext, hthen⟩

theorem mark_step (mark : Char) (rest : List Char) (f : List Char → Option β) :
    (readMark? mark (mark :: rest) >>= f) = f rest := by
  rw [readMark?_cons]
  rfl

theorem exists_of_mark_step {mark : Char} {text : List Char} {f : List Char → Option β}
    (h : (readMark? mark text >>= f) = some b) :
    ∃ rest, text = mark :: rest ∧ f rest = some b := by
  obtain ⟨rest, hread, hthen⟩ := Option.bind_eq_some_iff.mp h
  exact ⟨rest, eq_of_readMark? hread, hthen⟩

end Steps

/-- **EXACTLY THE TEXTS OF THE FORM ARE READ**, as their parts. -/
theorem read?_eq_some_iff {text : List Char} {t : TimeParts} :
    read? text = some t ↔ Form text t := by
  constructor
  · -- the numbers and the marks behind them are taken off in turn, and nothing is left over
    intro h
    obtain ⟨year, _, hyear, rfl, h1⟩ := exists_of_number_step h
    obtain ⟨_, rfl, h2⟩ := exists_of_mark_step h1
    obtain ⟨month, _, hmonth, rfl, h3⟩ := exists_of_number_step h2
    obtain ⟨_, rfl, h4⟩ := exists_of_mark_step h3
    obtain ⟨day, _, hday, rfl, h5⟩ := exists_of_number_step h4
    obtain ⟨_, rfl, h6⟩ := exists_of_mark_step h5
    obtain ⟨hour, _, hhour, rfl, h7⟩ := exists_of_number_step h6
    obtain ⟨_, rfl, h8⟩ := exists_of_mark_step h7
    obtain ⟨minute, _, hminute, rfl, h9⟩ := exists_of_number_step h8
    obtain ⟨_, rfl, h10⟩ := exists_of_mark_step h9
    obtain ⟨second, _, hsecond, rfl, h11⟩ := exists_of_number_step h10
    obtain ⟨_, rfl, h12⟩ := exists_of_mark_step h11
    obtain ⟨milli, _, hmilli, rfl, h13⟩ := exists_of_number_step h12
    obtain ⟨_, rfl, h14⟩ := exists_of_mark_step h13
    split at h14
    · rename_i hnil
      cases h14
      rw [hnil]
      exact .mk hyear hmonth hday hhour hminute hsecond hmilli
    · exact nomatch h14
  · -- a number of so many digits is read back, and so is a mark
    rintro ⟨hyear, hmonth, hday, hhour, hminute, hsecond, hmilli⟩
    refine (number_step hyear _ _).trans ?_
    refine (mark_step _ _ _).trans ?_
    refine (number_step hmonth _ _).trans ?_
    refine (mark_step _ _ _).trans ?_
    refine (number_step hday _ _).trans ?_
    refine (mark_step _ _ _).trans ?_
    refine (number_step hhour _ _).trans ?_
    refine (mark_step _ _ _).trans ?_
    refine (number_step hminute _ _).trans ?_
    refine (mark_step _ _ _).trans ?_
    refine (number_step hsecond _ _).trans ?_
    refine (mark_step _ _ _).trans ?_
    refine (number_step hmilli _ _).trans ?_
    refine (mark_step _ _ _).trans ?_
    rfl

-- ── Writing ───────────────────────────────────────────────────────────────────────

/-- Every part fits the digits there are for it. -/
structure Fits (t : TimeParts) : Prop where
  year_nonneg : 0 ≤ t.date.year
  year_lt : t.date.year < 10 ^ 4
  month_lt : t.date.month < 10 ^ 2
  day_lt : t.date.day < 10 ^ 2
  hour_lt : t.hour < 10 ^ 2
  minute_lt : t.minute < 10 ^ 2
  second_lt : t.second < 10 ^ 2
  milli_lt : t.milli < 10 ^ 3

/-- **What is written of parts that fit is of the form**, with these parts. -/
theorem Fits.form_render {t : TimeParts} (h : t.Fits) : Form t.render t := by
  obtain ⟨⟨year, month, day⟩, hour, minute, second, milli⟩ := t
  obtain ⟨hyear, hyear', hmonth, hday, hhour, hminute, hsecond, hmilli⟩ := h
  dsimp only at *
  have hwritten := Form.mk (Numeral.digits_padded 4 year.toNat) (Numeral.digits_padded 2 month)
    (Numeral.digits_padded 2 day) (Numeral.digits_padded 2 hour) (Numeral.digits_padded 2 minute)
    (Numeral.digits_padded 2 second) (Numeral.digits_padded 3 milli)
  have hback : ((year.toNat % 10 ^ 4 : Nat) : Int) = year := by omega
  rw [Numeral.value_padded, Numeral.value_padded, Numeral.value_padded, Numeral.value_padded,
    Numeral.value_padded, Numeral.value_padded, Numeral.value_padded, hback,
    Nat.mod_eq_of_lt hmonth, Nat.mod_eq_of_lt hday, Nat.mod_eq_of_lt hhour,
    Nat.mod_eq_of_lt hminute, Nat.mod_eq_of_lt hsecond, Nat.mod_eq_of_lt hmilli] at hwritten
  refine Eq.mp ?_ hwritten
  simp [render]

/-- **A text of the form is what is written of its parts**, which fit. -/
theorem Form.render_eq {text : List Char} {t : TimeParts} (h : Form text t) :
    t.render = text ∧ t.Fits := by
  obtain ⟨hyear, hmonth, hday, hhour, hminute, hsecond, hmilli⟩ := h
  obtain ⟨hyear, hyear'⟩ := hyear.padded_value
  obtain ⟨hmonth, hmonth'⟩ := hmonth.padded_value
  obtain ⟨hday, hday'⟩ := hday.padded_value
  obtain ⟨hhour, hhour'⟩ := hhour.padded_value
  obtain ⟨hminute, hminute'⟩ := hminute.padded_value
  obtain ⟨hsecond, hsecond'⟩ := hsecond.padded_value
  obtain ⟨hmilli, hmilli'⟩ := hmilli.padded_value
  constructor
  · simp [render, hyear, hmonth, hday, hhour, hminute, hsecond, hmilli]
  · refine ⟨Int.natCast_nonneg _, ?_, hmonth', hday', hhour', hminute', hsecond', hmilli'⟩
    dsimp only
    omega

/-- A text of the form has twenty-four characters, all of them ASCII. -/
theorem Form.ascii {text : List Char} {t : TimeParts} (h : Form text t) :
    text.length = 24 ∧ ∀ c ∈ text, c.toNat < 128 := by
  have hdigit : ∀ {width : Nat} {digits : List Char}, Digits width digits →
      ∀ c ∈ digits, c.toNat < 128 := by
    intro width digits hdigits c hmem
    obtain ⟨d, hd, rfl⟩ := Numeral.exists_digitChar_of_isDigit (hdigits.2 c hmem)
    rw [Nat.toNat_digitChar_of_lt_ten hd]
    omega
  obtain ⟨hyear, hmonth, hday, hhour, hminute, hsecond, hmilli⟩ := h
  constructor
  · simp [hyear.1, hmonth.1, hday.1, hhour.1, hminute.1, hsecond.1, hmilli.1]
  · intro c hmem
    simp only [List.mem_append, List.mem_cons, List.not_mem_nil, or_false] at hmem
    rcases hmem with h | rfl | h | rfl | h | rfl | h | rfl | h | rfl | h | rfl | h | rfl
    · exact hdigit hyear c h
    · decide
    · exact hdigit hmonth c h
    · decide
    · exact hdigit hday c h
    · decide
    · exact hdigit hhour c h
    · decide
    · exact hdigit hminute c h
    · decide
    · exact hdigit hsecond c h
    · decide
    · exact hdigit hmilli c h
    · decide

end AgentWire.TimeParts
