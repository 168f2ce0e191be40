import AgentWire.Json.Reader
import AgentWire.Proofs.Binary64.Decimal

/-!
# Numerals — a number that is written reads back

A numeral is spelled from its sign, whole part, fraction and exponent; a plain one has digits
where digits belong and no needless zero in front. A plain numeral is read as its parts, wherever
what stands behind it does not go on with it.

Every number is written as a plain numeral that stands for it: integers by their digits, doubles
by the digits of their shortest decimal, which reads back, with a point, with zeros around it or
with an exponent. So **reading undoes writing**, for every integer kept and every finite double.
-/

namespace AgentWire.Json

/-- A symbol with which a numeral goes on. -/
def continuesNumeral : Symbol → Bool
  | .char c => c.isDigit || c == '.' || c == 'e' || c == 'E'
  | .stray _ => false

/-- What stands behind a numeral does not go on with it. -/
def Closes (rest : List Symbol) : Prop :=
  ∀ symbol, rest.head? = some symbol → continuesNumeral symbol = false

/-- What stands behind digits is no digit. -/
def NoDigit (rest : List Symbol) : Prop :=
  ∀ c, rest.head? = some (.char c) → c.isDigit = false

/-- Every character is a decimal digit. -/
def AllDigits (digits : List Char) : Prop :=
  ∀ c ∈ digits, c.isDigit = true

theorem closes_nil : Closes [] := by
  intro symbol h
  exact nomatch h

theorem closes_cons {symbol : Symbol} (h : continuesNumeral symbol = false) (rest : List Symbol) :
    Closes (symbol :: rest) := by
  intro other hhead
  cases hhead
  exact h

theorem noDigit_cons {c : Char} (h : c.isDigit = false) (rest : List Symbol) :
    NoDigit (.char c :: rest) := by
  intro other hhead
  cases hhead
  exact h

theorem Closes.noDigit {rest : List Symbol} (h : Closes rest) : NoDigit rest := by
  intro c hhead
  have hcontinues := h _ hhead
  simp only [continuesNumeral, Bool.or_eq_false_iff] at hcontinues
  exact hcontinues.1.1.1

namespace NumberText

-- ── Spelling ──────────────────────────────────────────────────────────────────────

/-- A fraction as it is spelled, behind its point. -/
def spellFraction : List Char → List Char
  | [] => []
  | digits => '.' :: digits

/-- An exponent as it is spelled, behind its letter and sign. -/
def spellExponent : Option (Bool × List Char) → List Char
  | none => []
  | some (negative, digits) => 'e' :: (if negative then '-' else '+') :: digits

/-- A numeral as it is spelled. -/
def spell (t : NumberText) : List Char :=
  (if t.negative then ['-'] else []) ++
    (t.whole ++ (spellFraction t.fraction ++ spellExponent t.exponent))

/-- A numeral of digits without a needless zero in front. -/
structure IsPlain (t : NumberText) : Prop where
  whole_digits : AllDigits t.whole
  whole_ne_nil : t.whole ≠ []
  no_leading_zero : ∀ c rest, t.whole ≠ '0' :: c :: rest
  fraction_digits : AllDigits t.fraction
  exponent_digits : ∀ negative digits, t.exponent = some (negative, digits) →
    AllDigits digits ∧ digits ≠ []

end NumberText

-- ── Reading what is spelled ───────────────────────────────────────────────────────

theorem spanDigits_append {digits : List Char} (hdigits : AllDigits digits) {rest : List Symbol}
    (hrest : NoDigit rest) : spanDigits (digits.map .char ++ rest) = (digits, rest) := by
  induction digits with
  | nil =>
      cases rest with
      | nil => rfl
      | cons symbol tail =>
          cases symbol with
          | stray b => rfl
          | char c =>
              show spanDigits (.char c :: tail) = _
              rw [spanDigits, if_neg (Bool.eq_false_iff.mp (hrest c rfl))]
  | cons c digits ih =>
      show spanDigits (.char c :: (digits.map .char ++ rest)) = _
      rw [spanDigits, if_pos (hdigits c List.mem_cons_self),
        ih fun c' hmem => hdigits c' (List.mem_cons_of_mem _ hmem)]

theorem readDigits_append {digits : List Char} (hdigits : AllDigits digits) (hne : digits ≠ [])
    {rest : List Symbol} (hrest : NoDigit rest) :
    readDigits (digits.map .char ++ rest) = .ok (digits, rest) := by
  unfold readDigits
  rw [spanDigits_append hdigits hrest]
  cases digits with
  | nil => exact absurd rfl hne
  | cons c digits => rfl

theorem readWhole_append {digits : List Char} (hdigits : AllDigits digits) (hne : digits ≠ [])
    (hzero : ∀ c more, digits ≠ '0' :: c :: more) {rest : List Symbol} (hrest : NoDigit rest) :
    readWhole (digits.map .char ++ rest) = .ok (digits, rest) := by
  unfold readWhole
  rw [readDigits_append hdigits hne hrest]
  split
  · rename_i heq
    exact nomatch heq
  · rename_i heq
    cases heq
    exact absurd rfl (hzero _ _)
  · rename_i heq
    exact heq.symm

theorem readFraction_append {fraction : List Char} (hdigits : AllDigits fraction)
    {rest : List Symbol} (hrest : NoDigit rest) (hpoint : rest.head? ≠ some (.char '.')) :
    readFraction ((NumberText.spellFraction fraction).map .char ++ rest) =
      .ok (fraction, rest) := by
  cases fraction with
  | nil =>
      show readFraction rest = _
      unfold readFraction
      split
      · exact absurd rfl hpoint
      · rfl
  | cons c digits => exact readDigits_append hdigits (by simp) hrest

theorem readExponent_append {exponent : Option (Bool × List Char)}
    (hdigits : ∀ negative digits, exponent = some (negative, digits) →
      AllDigits digits ∧ digits ≠ [])
    {rest : List Symbol} (hrest : Closes rest) :
    readExponent ((NumberText.spellExponent exponent).map .char ++ rest) =
      .ok (exponent, rest) := by
  cases exponent with
  | none =>
      -- nothing that closes a number begins an exponent
      show readExponent rest = _
      unfold readExponent
      split
      · exact Bool.noConfusion (hrest _ rfl)
      · exact Bool.noConfusion (hrest _ rfl)
      · rfl
  | some written =>
      obtain ⟨negative, digits⟩ := written
      obtain ⟨hall, hne⟩ := hdigits negative digits rfl
      have hread := readDigits_append hall hne hrest.noDigit
      cases negative with
      | true =>
          show (readDigits (digits.map .char ++ rest)).map _ = _
          rw [hread]
          rfl
      | false =>
          show (readDigits (digits.map .char ++ rest)).map _ = _
          rw [hread]
          rfl

/-- What follows the whole part of a numeral is no digit. -/
theorem noDigit_spellExponent (exponent : Option (Bool × List Char)) {rest : List Symbol}
    (hrest : Closes rest) : NoDigit ((NumberText.spellExponent exponent).map .char ++ rest) := by
  cases exponent with
  | none => exact hrest.noDigit
  | some written => exact noDigit_cons (by decide) _

theorem head?_spellExponent_ne {exponent : Option (Bool × List Char)} {rest : List Symbol}
    (hrest : Closes rest) :
    ((NumberText.spellExponent exponent).map Symbol.char ++ rest).head? ≠ some (.char '.') := by
  cases exponent with
  | none =>
      intro hhead
      exact Bool.noConfusion (hrest _ hhead)
  | some written =>
      intro hhead
      cases hhead

theorem noDigit_spellFraction (fraction : List Char) {rest : List Symbol} (hrest : NoDigit rest) :
    NoDigit ((NumberText.spellFraction fraction).map .char ++ rest) := by
  cases fraction with
  | nil => exact hrest
  | cons c digits => exact noDigit_cons (by decide) _

/-- What is read of a numeral behind its sign. -/
def readUnsigned (negative : Bool) (input : List Symbol) :
    Except TextFault (NumberText × List Symbol) := do
  let (whole, input) ← readWhole input
  let (fraction, input) ← readFraction input
  let (exponent, input) ← readExponent input
  return (⟨negative, whole, fraction, exponent⟩, input)

theorem readNumberText_minus (input : List Symbol) :
    readNumberText (.char '-' :: input) = readUnsigned true input := rfl

theorem readNumberText_unsigned {input : List Symbol} (h : input.head? ≠ some (.char '-')) :
    readNumberText input = readUnsigned false input := by
  unfold readNumberText
  split
  rename_i negative behind hsign
  split at hsign
  · exact absurd rfl h
  · cases hsign
    rfl

theorem readUnsigned_spell (negative : Bool) {whole fraction : List Char}
    {exponent : Option (Bool × List Char)}
    (h : NumberText.IsPlain ⟨negative, whole, fraction, exponent⟩) {rest : List Symbol}
    (hrest : Closes rest) :
    readUnsigned negative (whole.map .char ++ ((NumberText.spellFraction fraction).map .char ++
      ((NumberText.spellExponent exponent).map .char ++ rest))) =
        .ok (⟨negative, whole, fraction, exponent⟩, rest) := by
  have hbehind : NoDigit ((NumberText.spellExponent exponent).map .char ++ rest) :=
    noDigit_spellExponent exponent hrest
  have hwhole := readWhole_append h.whole_digits h.whole_ne_nil h.no_leading_zero
    (noDigit_spellFraction fraction hbehind)
  have hfraction := readFraction_append h.fraction_digits hbehind (head?_spellExponent_ne hrest)
  have hexponent := readExponent_append h.exponent_digits hrest
  unfold readUnsigned
  rw [hwhole]
  show (readFraction _ >>= _) = _
  rw [hfraction]
  show (readExponent _ >>= _) = _
  rw [hexponent]
  rfl

/-- **A plain numeral is read as its parts.** -/
theorem readNumberText_spell {t : NumberText} (h : t.IsPlain) {rest : List Symbol}
    (hrest : Closes rest) : readNumberText (t.spell.map .char ++ rest) = .ok (t, rest) := by
  obtain ⟨negative, whole, fraction, exponent⟩ := t
  unfold NumberText.spell
  simp only [List.map_append, List.append_assoc]
  cases negative with
  | true =>
      show readNumberText (.char '-' :: (whole.map .char ++ _)) = _
      rw [readNumberText_minus, readUnsigned_spell true h hrest]
  | false =>
      have hsign : ∀ behind, (whole.map Symbol.char ++ behind).head? ≠ some (.char '-') := by
        intro behind
        cases whole with
        | nil => exact absurd rfl h.whole_ne_nil
        | cons c digits =>
            intro hhead
            cases hhead
            exact Bool.noConfusion (h.whole_digits '-' List.mem_cons_self)
      show readNumberText (whole.map .char ++ _) = _
      rw [readNumberText_unsigned (hsign _), readUnsigned_spell false h hrest]

-- ── Digits of a layout ────────────────────────────────────────────────────────────

theorem allDigits_ofNat (n : Nat) : AllDigits (Numeral.ofNat n) :=
  fun _ hmem => Numeral.isDigit_of_mem_ofNat hmem

theorem allDigits_zeros (k : Nat) : AllDigits (List.replicate k '0') := by
  intro c hmem
  rw [List.eq_of_mem_replicate hmem]
  rfl

theorem AllDigits.append {digits more : List Char} (h : AllDigits digits) (h' : AllDigits more) :
    AllDigits (digits ++ more) := by
  intro c hmem
  rcases List.mem_append.mp hmem with hin | hin
  · exact h c hin
  · exact h' c hin

namespace NumberText

/-- A numeral of a given sign spells a magnitude that stands for `n · 10 ^ e`, and does not look
    like an integer. -/
structure LaysOut (t : NumberText) (negative : Bool) (n : Nat) (e : Int) (magnitude : List Char) :
    Prop where
  sign : t.negative = negative
  plain : t.IsPlain
  not_integer : t.fraction ≠ [] ∨ t.exponent ≠ none
  spelled : magnitude = t.whole ++ (spellFraction t.fraction ++ spellExponent t.exponent)
  /-- The point may stand further right, with the exponent moved along. -/
  value : ∃ k : Nat, Numeral.value (t.whole ++ t.fraction) = n * 10 ^ k ∧ t.scale = e - k

theorem LaysOut.number?_eq {t : NumberText} {negative : Bool} {n : Nat} {e : Int}
    {magnitude : List Char} (h : t.LaysOut negative n e magnitude) (hpos : 0 < n) {x : Binary64}
    (hback : Binary64.ofDecimal? negative n e = some x) : t.number? = some (.double x) := by
  obtain ⟨k, hvalue, hscale⟩ := h.value
  have hinteger : t.integer? = none := by
    unfold integer?
    refine dif_neg ?_
    rintro ⟨hfraction, hexponent, -⟩
    rcases h.not_integer with hne | hne
    · exact hne hfraction
    · exact hne hexponent
  have hdouble : t.double? = some x := by
    unfold double?
    rw [h.sign, hvalue, hscale, Binary64.ofDecimal?_mul_pow _ hpos, hback]
  unfold number?
  rw [hinteger, hdouble]
  rfl

theorem spellFraction_of_ne_nil {fraction : List Char} (h : fraction ≠ []) :
    spellFraction fraction = '.' :: fraction := by
  cases fraction with
  | nil => exact absurd rfl h
  | cons c digits => rfl

/-- A numeral whose point stands before the digits, with zeros between them. -/
def pointBefore (negative : Bool) (digits : List Char) (zeros : Nat) : NumberText :=
  ⟨negative, ['0'], List.replicate zeros '0' ++ digits, none⟩

/-- A numeral whose point stands among the digits. -/
def pointAmong (negative : Bool) (digits : List Char) (point : Nat) : NumberText :=
  ⟨negative, digits.take point, digits.drop point, none⟩

/-- A numeral whose point stands behind the digits, with zeros between them. -/
def pointBehind (negative : Bool) (digits : List Char) (zeros : Nat) : NumberText :=
  ⟨negative, digits ++ List.replicate zeros '0', ['0'], none⟩

variable (negative : Bool) {n : Nat} {e : Int}

/-- Zeros between the point and the digits put the digits in their place. -/
theorem laysOut_pointBefore {zeros : Nat} (hpoint : ((Numeral.ofNat n).length : Int) + e = -zeros) :
    (pointBefore negative (Numeral.ofNat n) zeros).LaysOut negative n e
      ('0' :: '.' :: List.replicate zeros '0' ++ Numeral.ofNat n) := by
  have hfraction : List.replicate zeros '0' ++ Numeral.ofNat n ≠ [] := by
    intro hnil
    exact Numeral.ofNat_ne_nil n (List.append_eq_nil_iff.mp hnil).2
  refine ⟨rfl, ⟨allDigits_zeros 1, by simp [pointBefore], by simp [pointBefore],
    (allDigits_zeros _).append (allDigits_ofNat n), by simp [pointBefore]⟩, .inl hfraction, ?_,
    0, ?_, ?_⟩
  · unfold pointBefore
    rw [spellFraction_of_ne_nil hfraction]
    simp [spellExponent]
  · show Numeral.value (List.replicate 1 '0' ++ (List.replicate zeros '0' ++ Numeral.ofNat n)) = _
    rw [Numeral.value_zeros_append, Numeral.value_zeros_append, Numeral.value_ofNat, pow_zero,
      Nat.mul_one]
  · show (0 : Int) - ((List.replicate zeros '0' ++ Numeral.ofNat n).length : Nat) = _
    rw [List.length_append, List.length_replicate]
    omega

/-- Digits around the point keep their order, so they are the same number. -/
theorem laysOut_pointAmong (hpos : 0 < n) {point : Nat}
    (hpoint : ((Numeral.ofNat n).length : Int) + e = point) (hfirst : 0 < point)
    (hlast : point < (Numeral.ofNat n).length) :
    (pointAmong negative (Numeral.ofNat n) point).LaysOut negative n e
      ((Numeral.ofNat n).take point ++ '.' :: (Numeral.ofNat n).drop point) := by
  have hwhole : (Numeral.ofNat n).take point ≠ [] := by
    intro hnil
    have hnone := congrArg List.length hnil
    rw [List.length_take, List.length_nil] at hnone
    omega
  have hfraction : (Numeral.ofNat n).drop point ≠ [] := by
    intro hnil
    exact absurd (List.drop_eq_nil_iff.mp hnil) (Nat.not_le.mpr hlast)
  refine ⟨rfl, ⟨fun c hmem => allDigits_ofNat n c (List.mem_of_mem_take hmem), hwhole, ?_,
    fun c hmem => allDigits_ofNat n c (List.mem_of_mem_drop hmem), by simp [pointAmong]⟩,
    .inl hfraction, ?_, 0, ?_, ?_⟩
  · -- a leading zero would lead all the digits
    intro c rest hfront
    refine Numeral.ofNat_ne_zero_cons hpos (c :: rest ++ (Numeral.ofNat n).drop point) ?_
    rw [← List.cons_append, ← hfront]
    exact (List.take_append_drop point _).symm
  · unfold pointAmong
    rw [spellFraction_of_ne_nil hfraction]
    simp [spellExponent]
  · show Numeral.value ((Numeral.ofNat n).take point ++ (Numeral.ofNat n).drop point) = _
    rw [List.take_append_drop, Numeral.value_ofNat, pow_zero, Nat.mul_one]
  · show (0 : Int) - (((Numeral.ofNat n).drop point).length : Nat) = _
    rw [List.length_drop]
    omega

/-- Zeros between the digits and the point are digits of the number, as is the one behind it. -/
theorem laysOut_pointBehind (hpos : 0 < n) {zeros : Nat} (hpoint : e = zeros) :
    (pointBehind negative (Numeral.ofNat n) zeros).LaysOut negative n e
      (Numeral.ofNat n ++ List.replicate zeros '0' ++ ['.', '0']) := by
  have hwhole : Numeral.ofNat n ++ List.replicate zeros '0' ≠ [] := by
    intro hnil
    exact Numeral.ofNat_ne_nil n (List.append_eq_nil_iff.mp hnil).1
  refine ⟨rfl, ⟨(allDigits_ofNat n).append (allDigits_zeros _), hwhole, ?_, allDigits_zeros 1,
    by simp [pointBehind]⟩, .inl (by simp [pointBehind]), by
    simp [pointBehind, spellFraction, spellExponent], zeros + 1, ?_, ?_⟩
  · -- a leading zero would lead all the digits, of which there are some
    intro c rest hfront
    have hzero := Numeral.ofNat_ne_zero_cons hpos
    have hne := Numeral.ofNat_ne_nil n
    unfold pointBehind at hfront
    cases hdigits : Numeral.ofNat n with
    | nil => exact absurd hdigits hne
    | cons first more =>
        rw [hdigits] at hfront
        cases (List.cons.inj hfront).1
        exact absurd hdigits (hzero more)
  · show Numeral.value ((Numeral.ofNat n ++ List.replicate zeros '0') ++ List.replicate 1 '0') = _
    rw [Numeral.value_append_zeros, Numeral.value_append_zeros, Numeral.value_ofNat, Nat.mul_assoc,
      ← pow_add]
  · show (0 : Int) - (1 : Nat) = _
    omega

/-- Digits with a point in or around them stand for what they are laid out for. -/
theorem exists_positional (hpos : 0 < n) (e : Int) :
    ∃ t : NumberText, t.LaysOut negative n e
      (positional (Numeral.ofNat n) ((Numeral.ofNat n).length + e)) := by
  unfold positional
  split
  · exact ⟨_, laysOut_pointBefore negative (by omega)⟩
  · split
    · exact ⟨_, laysOut_pointAmong negative hpos (by omega) (by omega) (by omega)⟩
    · exact ⟨_, laysOut_pointBehind negative hpos (by omega)⟩

/-- Digits with an exponent stand for what they are laid out for. -/
theorem exists_scientific (e : Int) :
    ∃ t : NumberText, t.LaysOut negative n e
      (scientific (Numeral.ofNat n) ((Numeral.ofNat n).length + e - 1)) := by
  have hall := allDigits_ofNat n
  have hn := Numeral.value_ofNat n
  have hne := Numeral.ofNat_ne_nil n
  generalize Numeral.ofNat n = digits at hall hn hne
  cases digits with
  | nil => exact absurd rfl hne
  | cons first rest =>
      generalize hpower : (((first :: rest).length : Int) + e - 1) = power
      refine ⟨⟨negative, [first], rest, some (decide (power < 0), Numeral.ofNat power.natAbs)⟩, rfl,
        ⟨fun c hmem => hall c ?_, by simp, by simp,
          fun c hmem => hall c (List.mem_cons_of_mem _ hmem), ?_⟩, Or.inr (by simp), ?_, 0, ?_, ?_⟩
      · rw [List.mem_singleton.mp hmem]
        exact List.mem_cons_self
      · intro minus written hwritten
        cases hwritten
        exact ⟨allDigits_ofNat _, Numeral.ofNat_ne_nil _⟩
      · unfold scientific
        cases rest <;> by_cases hminus : power < 0 <;> simp [spellFraction, spellExponent, hminus]
      · show Numeral.value ([first] ++ rest) = _
        rw [List.singleton_append, hn, pow_zero, Nat.mul_one]
      · -- the power that is written counts the digits behind the first one as well
        unfold scale
        have hvalue := Numeral.value_ofNat power.natAbs
        rw [List.length_cons] at hpower
        by_cases hminus : power < 0
        · simp only [hminus, decide_true, hvalue]
          omega
        · simp only [hminus, decide_false, hvalue]
          omega

end NumberText

-- ── Writing and reading back ──────────────────────────────────────────────────────

/-- A double is written as a plain numeral that stands for it. -/
theorem exists_text_of_renderDouble (x : Binary64) :
    ∃ t : NumberText, t.IsPlain ∧ t.spell = renderDouble x ∧ t.number? = some (.double x) := by
  have hback := Binary64.ofDecimal?_shortest x
  unfold renderDouble
  dsimp only
  by_cases hzero : x.shortest.digits = 0
  · -- a zero has a numeral of its own, with its sign
    rw [hzero] at hback
    have hx : x = Binary64.zero x.negative := by
      unfold Binary64.ofDecimal? at hback
      rw [if_pos rfl] at hback
      exact (Option.some.inj hback).symm
    refine ⟨⟨x.negative, ['0'], ['0'], none⟩,
      ⟨allDigits_zeros 1, by simp, by simp, allDigits_zeros 1, by simp⟩, ?_, ?_⟩
    · rw [if_pos hzero]
      cases x.negative <;> rfl
    · rw [hx]
      rfl
  · -- the digits of any other are laid out, around a point or with an exponent
    rw [if_neg hzero]
    have hpos := Nat.pos_of_ne_zero hzero
    have hlaid : ∀ magnitude, (∃ t : NumberText, t.LaysOut x.negative x.shortest.digits
        x.shortest.exponent magnitude) → ∃ t : NumberText, t.IsPlain ∧
          t.spell = (if x.negative = true then '-' :: magnitude else magnitude) ∧
            t.number? = some (.double x) := by
      rintro magnitude ⟨t, hlays⟩
      refine ⟨t, hlays.plain, ?_, hlays.number?_eq hpos hback⟩
      rw [NumberText.spell, ← hlays.spelled, hlays.sign]
      cases x.negative <;> rfl
    refine hlaid _ ?_
    split
    · exact NumberText.exists_positional x.negative hpos x.shortest.exponent
    · exact NumberText.exists_scientific x.negative x.shortest.exponent

/-- An integer is written as a plain numeral that stands for it. -/
theorem exists_text_of_ofInt {n : Int} (word : IsWord n) :
    ∃ t : NumberText, t.IsPlain ∧ t.spell = Numeral.ofInt n ∧
      t.number? = some (.integer n word) := by
  refine ⟨⟨decide (n < 0), Numeral.ofNat n.natAbs, [], none⟩,
    ⟨allDigits_ofNat _, Numeral.ofNat_ne_nil _, ?_, by simp [AllDigits], by simp⟩, ?_, ?_⟩
  · -- the digits begin with a zero only if they are that zero
    intro c rest hfront
    by_cases hzero : n.natAbs = 0
    · dsimp only at hfront
      rw [hzero] at hfront
      exact nomatch (List.cons.inj hfront).2
    · exact Numeral.ofNat_ne_zero_cons (Nat.pos_of_ne_zero hzero) _ hfront
  · cases n with
    | ofNat n => simp [NumberText.spell, NumberText.spellFraction, NumberText.spellExponent,
        Numeral.ofInt]
    | negSucc n => simp [NumberText.spell, NumberText.spellFraction, NumberText.spellExponent,
        Numeral.ofInt, Int.negSucc_lt_zero]
  · -- the sign and the digits make up the number again
    have hn : (if decide (n < 0) = true then -(n.natAbs : Int) else (n.natAbs : Int)) = n := by
      by_cases hminus : n < 0
      · rw [if_pos (decide_eq_true hminus)]
        omega
      · rw [if_neg (by simpa using hminus)]
        omega
    have hinteger : NumberText.integer? ⟨decide (n < 0), Numeral.ofNat n.natAbs, [], none⟩ =
        some (.integer n word) := by
      unfold NumberText.integer?
      simp only [Numeral.value_ofNat, hn]
      rw [dif_pos]
      refine ⟨trivial, trivial, ?_, word⟩
      rintro ⟨hminus, hzero⟩
      have hlt := of_decide_eq_true hminus
      omega
    unfold NumberText.number?
    rw [hinteger]

/-- A number is written as a plain numeral that stands for it. -/
theorem exists_text_of_render (n : Number) :
    ∃ t : NumberText, t.IsPlain ∧ t.spell = n.render ∧ t.number? = some n := by
  cases n with
  | integer n word => exact exists_text_of_ofInt word
  | double x => exact exists_text_of_renderDouble x

/-- A numeral begins with its sign or with a digit. -/
theorem exists_head_of_render (n : Number) :
    ∃ c tail, n.render = c :: tail ∧ (c = '-' ∨ c.isDigit = true) := by
  obtain ⟨t, hplain, hspell, -⟩ := exists_text_of_render n
  obtain ⟨c, whole, hwhole⟩ := List.exists_cons_of_ne_nil hplain.whole_ne_nil
  rw [← hspell, NumberText.spell, hwhole]
  by_cases hsign : t.negative = true
  · rw [if_pos hsign]
    exact ⟨'-', _, rfl, .inl rfl⟩
  · rw [if_neg hsign]
    refine ⟨c, _, rfl, .inr (hplain.whole_digits c ?_)⟩
    rw [hwhole]
    exact List.mem_cons_self

/-- **A NUMBER THAT IS WRITTEN READS BACK**, whatever closes it. -/
theorem readNumber_render (n : Number) {rest : List Symbol} (hrest : Closes rest) :
    readNumber (n.render.map .char ++ rest) = .ok (n, rest) := by
  obtain ⟨t, hplain, hspell, hnumber⟩ := exists_text_of_render n
  unfold readNumber
  rw [← hspell, readNumberText_spell hplain hrest]
  dsimp only [bind, Except.bind]
  rw [hnumber]
  rfl

end AgentWire.Json
