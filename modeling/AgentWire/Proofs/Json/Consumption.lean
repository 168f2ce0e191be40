import AgentWire.Proofs.Json.Numeral
import AgentWire.Proofs.Json.Quoted

/-!
# Consumption — a reader takes symbols away and puts none back

What a reader leaves is no longer than what it was given (`Shrinks`). This holds of the readers of
words, strings and numerals, goes through a sequence of steps, and goes through a loop if it holds
of a turn:

    each turn shrinks    →  the loop shrinks
    value levels         by induction on the levels

So the symbols that are left bound whatever is done once for each bracket.
-/

namespace AgentWire.Json

open Reader

variable {α β σ : Type}

/-- A reader leaves no more symbols than there were. -/
def Shrinks (r : Reader α) : Prop :=
  ∀ ⦃input : List Symbol⦄ ⦃a : α⦄ ⦃rest : List Symbol⦄, r input = .ok (a, rest) →
    rest.length ≤ input.length

-- ── Words, strings and numerals ───────────────────────────────────────────────────

theorem length_of_readWord {word : List Char} :
    ∀ {input rest : List Symbol}, readWord word input = .ok ((), rest) →
      rest.length ≤ input.length := by
  induction word with
  | nil =>
      intro input rest h
      cases h
      exact Nat.le_refl _
  | cons c word ih =>
      intro input rest h
      cases input with
      | nil => exact nomatch h
      | cons symbol tail =>
          rw [readWord] at h
          split at h
          · exact Nat.le_succ_of_le (ih h)
          · exact nomatch h

theorem length_of_readStringBody {input : List Symbol} :
    ∀ {body rest : List Symbol}, readStringBody input = .ok (body, rest) →
      rest.length ≤ input.length := by
  induction input using readStringBody.induct with
  | case1 =>
      intro body rest h
      rw [readStringBody] at h
      cases h
  | case2 tail =>
      intro body rest h
      rw [readStringBody] at h
      cases h
      exact Nat.le_succ _
  | case3 tail cause hescape =>
      intro body rest h
      rw [readStringBody] at h
      split at h
      · cases h
      · rename_i heq
        cases hescape.symm.trans heq
  | case4 tail c after hescape ih =>
      -- an escape shortens what is left, and what is behind it shortens it further
      intro body rest h
      rw [readStringBody_escape hescape] at h
      obtain ⟨⟨inner, left⟩, hinner, heq⟩ := exists_of_map_eq_ok h
      cases heq
      have hshort := Nat.lt_succ_of_lt (length_of_readEscape hescape)
      exact Nat.le_trans (ih hinner) (Nat.le_of_lt hshort)
  | case5 symbol tail hquote hescape hbare =>
      intro body rest h
      rw [readStringBody.eq_4 _ _ hquote hescape, if_pos hbare] at h
      cases h
  | case6 symbol tail hquote hescape hbare ih =>
      intro body rest h
      rw [readStringBody.eq_4 _ _ hquote hescape, if_neg hbare] at h
      obtain ⟨⟨inner, left⟩, hinner, heq⟩ := exists_of_map_eq_ok h
      cases heq
      exact Nat.le_succ_of_le (ih hinner)

/-- A string that is read has a body that is read, and the same is left. -/
theorem exists_body_of_readText {input rest : List Symbol} {text : String}
    (h : readText input = .ok (text, rest)) :
    ∃ body, readStringBody input = .ok (body, rest) := by
  unfold readText at h
  split at h
  · exact nomatch h
  · rename_i body after hbody
    split at h
    · cases h
      exact ⟨body, hbody⟩
    · exact nomatch h

theorem length_spanDigits_le (input : List Symbol) :
    (spanDigits input).2.length ≤ input.length := by
  fun_induction spanDigits input with
  | case1 c tail hdigit digits after hspan ih =>
      rw [hspan] at ih
      exact Nat.le_succ_of_le ih
  | case2 => exact Nat.le_refl _
  | case3 => exact Nat.le_refl _

theorem length_of_readDigits {input rest : List Symbol} {digits : List Char}
    (h : readDigits input = .ok (digits, rest)) : rest.length ≤ input.length := by
  have hspan := length_spanDigits_le input
  unfold readDigits at h
  split at h
  · exact nomatch h
  · exact nomatch h
  · rename_i heq
    rw [heq] at hspan
    cases h
    exact hspan

theorem length_of_readWhole {input rest : List Symbol} {digits : List Char}
    (h : readWhole input = .ok (digits, rest)) : rest.length ≤ input.length := by
  unfold readWhole at h
  split at h
  · exact nomatch h
  · exact nomatch h
  · rename_i hdigits
    cases h
    exact length_of_readDigits hdigits

theorem length_of_readFraction {input rest : List Symbol} {digits : List Char}
    (h : readFraction input = .ok (digits, rest)) : rest.length ≤ input.length := by
  unfold readFraction at h
  split at h
  · exact Nat.le_succ_of_le (length_of_readDigits h)
  · cases h
    exact Nat.le_refl _

theorem length_readSign_le (input : List Symbol) :
    (readSign input).2.length ≤ input.length := by
  unfold readSign
  split
  · exact Nat.le_succ _
  · exact Nat.le_succ _
  · exact Nat.le_refl _

theorem length_of_readExponent {input rest : List Symbol} {exponent : Option (Bool × List Char)}
    (h : readExponent input = .ok (exponent, rest)) : rest.length ≤ input.length := by
  have hsigned : ∀ {tail : List Symbol},
      ((readDigits (readSign tail).2).map fun read =>
        (some ((readSign tail).1, read.1), read.2)) = .ok (exponent, rest) →
      rest.length ≤ tail.length + 1 := by
    intro tail hmap
    obtain ⟨⟨digits, left⟩, hdigits, heq⟩ := exists_of_map_eq_ok hmap
    cases heq
    exact Nat.le_succ_of_le
      (Nat.le_trans (length_of_readDigits hdigits) (length_readSign_le tail))
  unfold readExponent at h
  split at h
  · exact hsigned h
  · exact hsigned h
  · cases h
    exact Nat.le_refl _

theorem length_of_readUnsigned {negative : Bool} {input rest : List Symbol} {text : NumberText}
    (h : readUnsigned negative input = .ok (text, rest)) : rest.length ≤ input.length := by
  obtain ⟨⟨whole, afterWhole⟩, hwhole, h⟩ := exists_of_bind_eq_ok h
  obtain ⟨⟨fraction, afterFraction⟩, hfraction, h⟩ := exists_of_bind_eq_ok h
  obtain ⟨⟨exponent, afterExponent⟩, hexponent, h⟩ := exists_of_bind_eq_ok h
  cases h
  calc rest.length
      ≤ afterFraction.length := length_of_readExponent hexponent
    _ ≤ afterWhole.length := length_of_readFraction hfraction
    _ ≤ input.length := length_of_readWhole hwhole

theorem length_of_readNumberText {input rest : List Symbol} {text : NumberText}
    (h : readNumberText input = .ok (text, rest)) : rest.length ≤ input.length := by
  by_cases hsign : input.head? = some (.char '-')
  · obtain ⟨tail, rfl⟩ := List.head?_eq_some_iff.mp hsign
    rw [readNumberText_minus] at h
    exact Nat.le_succ_of_le (length_of_readUnsigned h)
  · rw [readNumberText_unsigned hsign] at h
    exact length_of_readUnsigned h

/-- A number that is read has a numeral that is read, and the same is left. -/
theorem exists_text_of_readNumber {input rest : List Symbol} {n : Number}
    (h : readNumber input = .ok (n, rest)) : ∃ text, readNumberText input = .ok (text, rest) := by
  obtain ⟨⟨text, after⟩, htext, h⟩ := exists_of_bind_eq_ok h
  dsimp only at h
  split at h
  · cases h
    exact ⟨text, htext⟩
  · exact nomatch h

theorem length_of_skipText {input : List Symbol} :
    ∀ {rest : List Symbol}, skipText input = .ok ((), rest) → rest.length ≤ input.length := by
  induction input using skipText.induct with
  | case1 =>
      intro rest h
      rw [skipText] at h
      cases h
  | case2 tail =>
      intro rest h
      rw [skipText] at h
      cases h
      exact Nat.le_succ _
  | case3 tail cause hescape =>
      intro rest h
      rw [skipText] at h
      split at h
      · cases h
      · rename_i heq
        cases hescape.symm.trans heq
  | case4 tail after hescape ih =>
      intro rest h
      rw [skipText] at h
      split at h
      · cases h
      · rename_i heq
        cases hescape.symm.trans heq
        have hshort := Nat.lt_succ_of_lt (length_of_skipEscape hescape)
        exact Nat.le_trans (ih h) (Nat.le_of_lt hshort)
  | case5 symbol tail hquote hescape hbare =>
      intro rest h
      rw [skipText.eq_4 _ _ hquote hescape, if_pos hbare] at h
      cases h
  | case6 symbol tail hquote hescape hbare ih =>
      intro rest h
      rw [skipText.eq_4 _ _ hquote hescape, if_neg hbare] at h
      exact Nat.le_succ_of_le (ih h)

theorem length_of_skipNumber {input rest : List Symbol} (h : skipNumber input = .ok ((), rest)) :
    rest.length ≤ input.length := by
  unfold skipNumber at h
  split at h
  · rename_i htext
    cases h
    exact length_of_readNumberText htext
  · exact nomatch h

-- ── Steps ─────────────────────────────────────────────────────────────────────────

namespace Shrinks

theorem bind {x : Reader α} {f : α → Reader β} (hx : Shrinks x) (hf : ∀ a, Shrinks (f a)) :
    Shrinks (x >>= f) := by
  intro input b rest h
  obtain ⟨a, between, hfirst, hsecond⟩ := of_bind_eq_ok h
  exact Nat.le_trans (hf a hsecond) (hx hfirst)

theorem pure (a : α) : Shrinks (Pure.pure a : Reader α) := by
  intro input b rest h
  cases h
  exact Nat.le_refl _

theorem fail (cause : TextFault) : Shrinks (Reader.fail cause : Reader α) := by
  intro input b rest h
  exact nomatch h

theorem ofText {read : List Symbol → Except TextFault (α × List Symbol)}
    (h : ∀ {input rest : List Symbol} {a : α}, read input = .ok (a, rest) →
      rest.length ≤ input.length) : Shrinks (Reader.ofText read) := by
  intro input a rest hread
  exact h (of_ofText_eq_ok hread)

theorem advance : Shrinks Reader.advance := by
  intro input u rest h
  cases h
  show input.tail.length ≤ input.length
  rw [List.length_tail]
  exact Nat.sub_le _ _

theorem peekPastBlanks : Shrinks Reader.peekPastBlanks := by
  intro input symbol rest h
  cases h
  exact (List.dropWhile_suffix _).length_le

theorem remaining : Shrinks Reader.remaining := by
  intro input n rest h
  cases h
  exact Nat.le_refl _

theorem peekStart : Shrinks Json.peekStart := by
  refine peekPastBlanks.bind ?_
  intro symbol
  split
  · exact fail _
  · split
    · exact pure _
    · exact fail _

theorem colon : Shrinks Json.colon := by
  refine peekPastBlanks.bind ?_
  intro symbol
  split
  · exact fail _
  · exact advance
  · exact fail _

theorem word (word : List Char) : Shrinks (Reader.ofText (readWord word)) :=
  ofText length_of_readWord

theorem number : Shrinks (Reader.ofText readNumber) := by
  refine ofText ?_
  intro input rest n h
  obtain ⟨text, htext⟩ := exists_text_of_readNumber h
  exact length_of_readNumberText htext

theorem stringAtQuote : Shrinks Json.stringAtQuote := by
  refine advance.bind fun _ => ofText ?_
  intro input rest text h
  obtain ⟨body, hbody⟩ := exists_body_of_readText h
  exact length_of_readStringBody hbody

-- ── Loops ─────────────────────────────────────────────────────────────────────────

variable (after : AfterComma) {turn : σ → Reader σ}

theorem moreItems (hturn : ∀ state, Shrinks (turn state)) :
    ∀ (turns : Nat) (state : σ), Shrinks (Json.moreItems after turn turns state)
  | 0, _ => fail _
  | turns + 1, state => by
      rw [Json.moreItems]
      refine peekPastBlanks.bind ?_
      intro symbol
      split
      · exact fail _
      · exact advance.bind fun _ => pure _
      · refine advance.bind fun _ => peekPastBlanks.bind ?_
        intro next
        split
        · exact fail _
        · exact fail _
        · exact (hturn state).bind (moreItems hturn turns)
      · exact fail _

/-- **A loop over items shrinks if its turns do.** -/
theorem items (hturn : ∀ state, Shrinks (turn state)) (start : σ) :
    Shrinks (Json.items after turn start) := by
  refine peekPastBlanks.bind ?_
  intro symbol
  split
  · exact fail _
  · exact advance.bind fun _ => pure _
  · refine (hturn start).bind ?_
    intro state
    exact remaining.bind fun turns => moreItems after hturn turns state

theorem moreMembers (hturn : ∀ state, Shrinks (turn state)) :
    ∀ (turns : Nat) (state : σ), Shrinks (Json.moreMembers after turn turns state)
  | 0, _ => fail _
  | turns + 1, state => by
      rw [Json.moreMembers]
      refine peekPastBlanks.bind ?_
      intro symbol
      split
      · exact fail _
      · exact advance.bind fun _ => pure _
      · refine advance.bind fun _ => peekPastBlanks.bind ?_
        intro next
        split
        · exact fail _
        · exact fail _
        · exact (hturn state).bind (moreMembers hturn turns)
        · exact fail _
      · exact fail _

/-- **A loop over members shrinks if its turns do.** -/
theorem members (hturn : ∀ state, Shrinks (turn state)) (start : σ) :
    Shrinks (Json.members after turn start) := by
  refine peekPastBlanks.bind ?_
  intro symbol
  split
  · exact fail _
  · exact advance.bind fun _ => pure _
  · refine (hturn start).bind ?_
    intro state
    exact remaining.bind fun turns => moreMembers after hturn turns state
  · exact fail _

-- ── Values ────────────────────────────────────────────────────────────────────────

theorem listOf {item : Reader Json} (h : Shrinks item) : Shrinks (Json.listOf item) :=
  advance.bind fun _ => (items keeping (fun _ => h.bind fun _ => pure _) []).bind fun _ => pure _

theorem memberOf {read : Reader Json} (h : Shrinks read) : Shrinks (Json.memberOf read) :=
  stringAtQuote.bind fun _ => colon.bind fun _ => h.bind fun _ => pure _

theorem membersOf {read : Reader Json} (h : Shrinks read) : Shrinks (Json.membersOf read) :=
  (members keeping (fun _ => h.memberOf.bind fun _ => pure _) []).bind fun _ => pure _

theorem objectOf {read : Reader Json} (h : Shrinks read) : Shrinks (Json.objectOf read) :=
  advance.bind fun _ => h.membersOf.bind fun _ => pure _

theorem valueWith {list object : Reader Json} (hlist : Shrinks list) (hobject : Shrinks object) :
    Shrinks (Json.valueWith list object) := by
  refine peekStart.bind ?_
  intro start
  cases start with
  | null => exact (word _).bind fun _ => pure _
  | yes => exact (word _).bind fun _ => pure _
  | no => exact (word _).bind fun _ => pure _
  | text => exact stringAtQuote.bind fun _ => pure _
  | number => exact number.bind fun _ => pure _
  | list => exact hlist
  | object => exact hobject

/-- **READING A VALUE PUTS NO SYMBOL BACK.** -/
theorem value : ∀ levels : Nat, Shrinks (Json.value levels)
  | 0 => valueWith (fail _) (fail _)
  | levels + 1 => valueWith (value levels).listOf (value levels).objectOf

/-- A string that is skipped from its quote on. -/
theorem skipQuoted : Shrinks (do Reader.advance; Reader.ofText skipText : Reader Unit) :=
  advance.bind fun _ => ofText length_of_skipText

theorem skipWith {list object : Reader Unit} (hlist : Shrinks list) (hobject : Shrinks object) :
    Shrinks (Json.skipWith list object) := by
  refine peekStart.bind ?_
  intro start
  cases start with
  | null => exact word _
  | yes => exact word _
  | no => exact word _
  | text => exact skipQuoted
  | number => exact ofText length_of_skipNumber
  | list => exact hlist
  | object => exact hobject

theorem skipMember {skipped : Reader Unit} (h : Shrinks skipped) :
    Shrinks (Json.skipMember skipped) :=
  advance.bind fun _ => (ofText length_of_skipText).bind fun _ => colon.bind fun _ => h

theorem skip : ∀ levels : Nat, Shrinks (Json.skip levels)
  | 0 => skipWith (fail _) (fail _)
  | levels + 1 =>
      skipWith (advance.bind fun _ => items skipping (fun _ => skip levels) ())
        (advance.bind fun _ => members skipping (fun _ => (skip levels).skipMember) ())

/-- **SKIPPING A VALUE PUTS NO SYMBOL BACK.** -/
theorem skipValue : Shrinks Json.skipValue :=
  remaining.bind fun levels => skip levels

end Shrinks

end AgentWire.Json
