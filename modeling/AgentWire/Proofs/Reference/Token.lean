import AgentWire.Reference
import Mathlib

/-!
# The grammar of tokens — what a reference looks like

A token is written out here as a grammar, apart from the reader: two opening braces, blanks, a
name, blanks, an index or none, two closing braces; an index is digits between square brackets,
with blanks before and behind them and behind the closing bracket.

    readParts? text = some (name, digits, rest)  ↔  text is a token of name and digits, then rest

No class of characters meets the one that follows it, so every part ends where the grammar says
it does, whatever stands behind the token. Hence a token that is found inside a text is a token
by itself, and **the token alone tells the reference**.
-/

namespace AgentWire.Reference

/-- Every character is of a class. -/
def AllOf (p : Char → Bool) (text : List Char) : Prop :=
  ∀ c ∈ text, p c = true

/-- The text does not go on with a character of a class. -/
def Stops (p : Char → Bool) (text : List Char) : Prop :=
  ∀ c, text.head? = some c → p c = false

/-- The text of an index, by its digits: nothing at all, or digits in brackets. -/
inductive IndexText : Option (List Char) → List Char → Prop where
  | absent : IndexText none []
  | bracketed {before digits between after : List Char}
      (hbefore : AllOf isBlank before) (hne : digits ≠ []) (hdigits : AllOf Char.isDigit digits)
      (hbetween : AllOf isBlank between) (hafter : AllOf isBlank after) :
      IndexText (some digits) ('[' :: (before ++ (digits ++ (between ++ ']' :: after))))

/-- The text of a token, by its name and the digits of its index. -/
inductive TokenText (name : List Char) (digits : Option (List Char)) : List Char → Prop where
  | braced {before after index : List Char}
      (hbefore : AllOf isBlank before) (hne : name ≠ []) (hname : AllOf isNameChar name)
      (hafter : AllOf isBlank after) (hindex : IndexText digits index) :
      TokenText name digits ('{' :: '{' :: (before ++ (name ++ (after ++ (index ++ ['}', '}'])))))

-- ── Classes of characters ─────────────────────────────────────────────────────────

theorem takeWhile_append_of_stops {p : Char → Bool} {inside rest : List Char}
    (hall : AllOf p inside) (hstops : Stops p rest) : (inside ++ rest).takeWhile p = inside := by
  rw [List.takeWhile_append_of_pos hall]
  cases rest with
  | nil => simp
  | cons c tail => simp [hstops c rfl]

theorem dropWhile_append_of_stops {p : Char → Bool} {inside rest : List Char}
    (hall : AllOf p inside) (hstops : Stops p rest) : (inside ++ rest).dropWhile p = rest := by
  rw [List.dropWhile_append_of_pos hall]
  cases rest with
  | nil => simp
  | cons c tail => simp [hstops c rfl]

theorem allOf_takeWhile (p : Char → Bool) (text : List Char) : AllOf p (text.takeWhile p) :=
  fun _ hmem => List.mem_takeWhile_imp hmem

theorem stops_cons {p : Char → Bool} {c : Char} (h : p c = false) (rest : List Char) :
    Stops p (c :: rest) := by
  intro c' hhead
  cases hhead
  exact h

/-- A text that begins with a character of another class stops this one. -/
theorem stops_append {p q : Char → Bool} {inside : List Char} (hne : inside ≠ [])
    (hall : AllOf q inside) (hdisjoint : ∀ c, q c = true → p c = false) (rest : List Char) :
    Stops p (inside ++ rest) := by
  cases inside with
  | nil => exact absurd rfl hne
  | cons c tail => exact stops_cons (hdisjoint c (hall c List.mem_cons_self)) _

/-- Characters of one class before a text that stops another class, where no character is in
    both: the other class is stopped at once. -/
theorem stops_append_of_stops {p q : Char → Bool} {inside rest : List Char}
    (hall : AllOf q inside) (hdisjoint : ∀ c, q c = true → p c = false) (hrest : Stops p rest) :
    Stops p (inside ++ rest) := by
  cases inside with
  | nil => exact hrest
  | cons c tail => exact stops_append (by simp) hall hdisjoint rest

theorem isBlank_digit {c : Char} (h : c.isDigit = true) : isBlank c = false := by
  have hrange : 48 ≤ c.toNat ∧ c.toNat ≤ 57 := by
    simp only [Char.isDigit, Bool.and_eq_true, decide_eq_true_eq, ge_iff_le,
      UInt32.le_iff_toNat_le] at h
    exact h
  simp only [isBlank, Bool.or_eq_false_iff, Bool.and_eq_false_iff, decide_eq_false_iff_not,
    beq_eq_false_iff_ne]
  omega

theorem isBlank_nameChar {c : Char} (h : isNameChar c = true) : isBlank c = false := by
  have hrange : 45 ≤ c.toNat ∧ c.toNat ≤ 122 := by
    simp only [isNameChar, Bool.or_eq_true, beq_iff_eq] at h
    rcases h with ((h | rfl) | rfl) | rfl
    · simp only [Char.isAlphanum, Char.isAlpha, Char.isUpper, Char.isLower, Char.isDigit,
        Bool.or_eq_true, Bool.and_eq_true, decide_eq_true_eq, ge_iff_le,
        UInt32.le_iff_toNat_le] at h
      rw [show c.toNat = c.val.toNat from rfl]
      simp only [show 'A'.val.toNat = 65 from rfl, show 'Z'.val.toNat = 90 from rfl,
        show 'a'.val.toNat = 97 from rfl, show 'z'.val.toNat = 122 from rfl,
        show '0'.val.toNat = 48 from rfl, show '9'.val.toNat = 57 from rfl] at h
      omega
    · decide
    · decide
    · decide
  simp only [isBlank, Bool.or_eq_false_iff, Bool.and_eq_false_iff, decide_eq_false_iff_not,
    beq_eq_false_iff_ne]
  omega

theorem isNameChar_blank {c : Char} (h : isBlank c = true) : isNameChar c = false := by
  cases hname : isNameChar c with
  | false => rfl
  | true => rw [isBlank_nameChar hname] at h; exact Bool.noConfusion h

theorem isDigit_blank {c : Char} (h : isBlank c = true) : c.isDigit = false := by
  cases hdigit : c.isDigit with
  | false => rfl
  | true => rw [isBlank_digit hdigit] at h; exact Bool.noConfusion h

-- ── The reader reads tokens ───────────────────────────────────────────────────────

/-- An index is read up to the blanks behind it. -/
theorem readIndex?_append {digits : Option (List Char)} {index : List Char}
    (h : IndexText digits index) (rest : List Char) :
    ∃ blanks, AllOf isBlank blanks ∧
      readIndex? (index ++ '}' :: rest) = some (digits, blanks ++ '}' :: rest) := by
  cases h with
  | absent => exact ⟨[], by simp [AllOf], rfl⟩
  | @bracketed before digits between after hbefore hne hdigits hbetween hafter =>
      refine ⟨after, hafter, ?_⟩
      have hdigit : Stops isBlank (digits ++ (between ++ ']' :: (after ++ '}' :: rest))) :=
        stops_append hne hdigits (fun _ => isBlank_digit) _
      have hblank : Stops Char.isDigit (between ++ ']' :: (after ++ '}' :: rest)) :=
        stops_append_of_stops hbetween (fun _ => isDigit_blank) (stops_cons (by decide) _)
      have hclosed : Stops isBlank (']' :: (after ++ '}' :: rest)) := stops_cons (by decide) _
      simp only [List.cons_append, List.append_assoc, readIndex?]
      rw [dropWhile_append_of_stops hbefore hdigit, takeWhile_append_of_stops hdigits hblank,
        dropWhile_append_of_stops hdigits hblank, dropWhile_append_of_stops hbetween hclosed]
      simp [hne]

theorem stops_index {digits : Option (List Char)} {index : List Char} (h : IndexText digits index)
    (rest : List Char) {p : Char → Bool} (hbracket : p '[' = false) (hbrace : p '}' = false) :
    Stops p (index ++ '}' :: rest) := by
  cases h with
  | absent => exact stops_cons hbrace _
  | bracketed => exact stops_cons hbracket _

/-- **A token is read as its parts, whatever stands behind it.** -/
theorem readParts?_append {name token : List Char} {digits : Option (List Char)}
    (h : TokenText name digits token) (rest : List Char) :
    readParts? (token ++ rest) = some (name, digits, rest) := by
  obtain ⟨hbefore, hne, hname, hafter, hindex⟩ := h
  rename_i before after index
  obtain ⟨blanks, hblanks, hread⟩ := readIndex?_append hindex ('}' :: rest)
  have hblank : Stops isBlank (index ++ '}' :: '}' :: rest) :=
    stops_index hindex _ (by decide) (by decide)
  have hafterName : Stops isNameChar (after ++ (index ++ '}' :: '}' :: rest)) :=
    stops_append_of_stops hafter (fun _ => isNameChar_blank)
      (stops_index hindex _ (by decide) (by decide))
  have hbeforeName : Stops isBlank (name ++ (after ++ (index ++ '}' :: '}' :: rest))) :=
    stops_append hne hname (fun _ => isBlank_nameChar) _
  have hclosed : Stops isBlank ('}' :: '}' :: rest) := stops_cons (by decide) _
  simp only [List.cons_append, List.append_assoc, List.nil_append, readParts?]
  rw [dropWhile_append_of_stops hbefore hbeforeName, takeWhile_append_of_stops hname hafterName,
    dropWhile_append_of_stops hname hafterName, dropWhile_append_of_stops hafter hblank, hread]
  rw [if_neg hne]
  dsimp only
  rw [dropWhile_append_of_stops hblanks hclosed]
  rfl

/-- **A text begins with one token at most**, and that has one name and one index. -/
theorem TokenText.eq_of_append_eq {name name' token token' rest rest' : List Char}
    {digits digits' : Option (List Char)} (h : TokenText name digits token)
    (h' : TokenText name' digits' token') (heq : token ++ rest = token' ++ rest') :
    name = name' ∧ digits = digits' ∧ token = token' := by
  have hread := readParts?_append h rest
  rw [heq, readParts?_append h' rest'] at hread
  simp only [Option.some.injEq, Prod.mk.injEq] at hread
  obtain ⟨rfl, rfl, rfl⟩ := hread
  exact ⟨rfl, rfl, List.append_cancel_right heq⟩

-- ── What is read is a token ───────────────────────────────────────────────────────

theorem stops_dropWhile (p : Char → Bool) (text : List Char) : Stops p (text.dropWhile p) := by
  intro c hhead
  have hnot := List.head?_dropWhile_not p text
  rw [hhead] at hnot
  exact hnot

theorem dropWhile_of_stops {p : Char → Bool} {text : List Char} (h : Stops p text) :
    text.dropWhile p = text := by
  cases text with
  | nil => rfl
  | cons c rest => simp [h c rfl]

/-- What is read as an index is the text of one, together with the blanks behind it. -/
theorem exists_index_of_readIndex? {text rest : List Char} {digits : Option (List Char)}
    (hstops : Stops isBlank text) (h : readIndex? text = some (digits, rest)) :
    ∃ index, IndexText digits index ∧ text = index ++ rest.dropWhile isBlank := by
  unfold readIndex? at h
  split at h
  · rename_i tail
    dsimp only at h
    split at h
    · rename_i after hclosed
      split at h
      · exact nomatch h
      · rename_i hne
        simp only [Option.some.injEq, Prod.mk.injEq] at h
        obtain ⟨rfl, rfl⟩ := h
        refine ⟨_, .bracketed (allOf_takeWhile isBlank tail) hne (allOf_takeWhile _ _)
          (allOf_takeWhile isBlank ((tail.dropWhile isBlank).dropWhile Char.isDigit))
          (allOf_takeWhile isBlank after), ?_⟩
        simp only [List.cons_append, List.append_assoc, List.takeWhile_append_dropWhile]
        rw [← hclosed, List.takeWhile_append_dropWhile, List.takeWhile_append_dropWhile,
          List.takeWhile_append_dropWhile]
    · exact nomatch h
  · -- without a bracket there is no index, and there were no blanks to skip
    simp only [Option.some.injEq, Prod.mk.injEq] at h
    obtain ⟨rfl, rfl⟩ := h
    exact ⟨[], .absent, (dropWhile_of_stops hstops).symm⟩

/-- **What is read as a token is the text of one.** -/
theorem exists_token_of_readParts? {text rest name : List Char} {digits : Option (List Char)}
    (h : readParts? text = some (name, digits, rest)) :
    ∃ token, TokenText name digits token ∧ text = token ++ rest := by
  unfold readParts? at h
  split at h
  · rename_i tail
    dsimp only at h
    split at h
    · exact nomatch h
    · rename_i hne
      split at h
      · exact nomatch h
      · rename_i digits' behind hread
        split at h
        · -- the token is closed, and its parts in a row are the text
          rename_i rest' hclosed
          simp only [Option.some.injEq, Prod.mk.injEq] at h
          obtain ⟨rfl, rfl, rfl⟩ := h
          obtain ⟨index, hindex, hsplit⟩ :=
            exists_index_of_readIndex? (stops_dropWhile _ _) hread
          refine ⟨_, .braced (allOf_takeWhile isBlank tail) hne (allOf_takeWhile _ _)
            (allOf_takeWhile isBlank ((tail.dropWhile isBlank).dropWhile isNameChar)) hindex, ?_⟩
          simp only [List.cons_append, List.append_assoc, List.nil_append]
          rw [← hclosed, ← hsplit, List.takeWhile_append_dropWhile,
            List.takeWhile_append_dropWhile, List.takeWhile_append_dropWhile]
        · exact nomatch h
  · exact nomatch h

-- ── References are read off their tokens ──────────────────────────────────────────

/-- The reference that a token of given parts is. -/
def ofParts (name : List Char) (digits : Option (List Char)) (token : List Char) : Reference :=
  ⟨String.ofList name, digits.map indexOf, String.ofList token⟩

/-- **A reference is read exactly where a token stands.** -/
theorem read?_eq_some_iff {text rest : List Char} {r : Reference} :
    read? text = some (r, rest) ↔
      ∃ name digits token, TokenText name digits token ∧ text = token ++ rest ∧
        r = ofParts name digits token := by
  constructor
  · intro h
    unfold read? at h
    split at h
    · exact nomatch h
    · rename_i name digits rest' hparts
      simp only [Option.some.injEq, Prod.mk.injEq] at h
      obtain ⟨rfl, rfl⟩ := h
      obtain ⟨token, htoken, rfl⟩ := exists_token_of_readParts? hparts
      exact ⟨name, digits, token, htoken, rfl, by simp [ofParts]⟩
  · rintro ⟨name, digits, token, htoken, rfl, rfl⟩
    unfold read?
    rw [readParts?_append htoken rest]
    simp [ofParts]

/-- A token is read as its reference, whatever stands behind it. -/
theorem TokenText.read?_append {name token : List Char} {digits : Option (List Char)}
    (h : TokenText name digits token) (rest : List Char) :
    read? (token ++ rest) = some (ofParts name digits token, rest) :=
  read?_eq_some_iff.mpr ⟨name, digits, token, h, rfl, rfl⟩

/-- A text is one reference when it is its token and nothing else. -/
theorem parse?_eq_some_iff {text : String} {r : Reference} :
    parse? text = some r ↔
      ∃ name digits, TokenText name digits text.toList ∧ r = ofParts name digits text.toList := by
  have hread : parse? text = some r ↔ read? text.toList = some (r, []) := by
    unfold parse?
    split
    · rename_i r' h
      rw [h]
      simp
    · rename_i h
      constructor
      · intro hnone
        exact nomatch hnone
      · intro hsome
        exact absurd hsome (h r)
  rw [hread, read?_eq_some_iff]
  constructor
  · rintro ⟨name, digits, token, htoken, htext, rfl⟩
    rw [List.append_nil] at htext
    subst htext
    exact ⟨name, digits, htoken, rfl⟩
  · rintro ⟨name, digits, htoken, rfl⟩
    exact ⟨name, digits, _, htoken, by rw [List.append_nil], rfl⟩

/-- A reference read at the front of a text is the one that its token is by itself. -/
theorem parse?_token_of_read? {text rest : List Char} {r : Reference}
    (h : read? text = some (r, rest)) : parse? r.token = some r := by
  obtain ⟨name, digits, token, htoken, -, rfl⟩ := read?_eq_some_iff.mp h
  refine parse?_eq_some_iff.mpr ⟨name, digits, ?_⟩
  rw [show (ofParts name digits token).token.toList = token from String.toList_ofList]
  exact ⟨htoken, rfl⟩

/-- A token begins with two opening braces. -/
theorem exists_braces_of_read? {text rest : List Char} {r : Reference}
    (h : read? text = some (r, rest)) : ∃ tail, text = '{' :: '{' :: tail := by
  obtain ⟨name, digits, token, htoken, rfl, -⟩ := read?_eq_some_iff.mp h
  cases htoken
  exact ⟨_, rfl⟩

end AgentWire.Reference

namespace AgentWire

-- ── The pieces of a text ──────────────────────────────────────────────────────────

/-- Each reference among the pieces of a text is the one that its token is by itself. -/
theorem Piece.parse?_of_mem_ofText {text : List Char} {r : Reference}
    (h : Piece.token r ∈ Piece.ofText text) : Reference.parse? r.token = some r := by
  fun_induction Piece.ofText text with
  | case1 => exact nomatch h
  | case2 c rest r' after hread ih =>
      rcases List.mem_cons.mp h with heq | hmem
      · cases heq
        exact Reference.parse?_token_of_read? hread
      · exact ih hmem
  | case3 c rest _ ih =>
      rcases List.mem_cons.mp h with heq | hmem
      · exact nomatch heq
      · exact ih hmem

namespace Reference

theorem mem_inChars_iff {text : List Char} {r : Reference} :
    r ∈ inChars text ↔ Piece.token r ∈ Piece.ofText text := by
  simp only [inChars, List.mem_filterMap]
  constructor
  · rintro ⟨piece, hmem, href⟩
    cases piece with
    | literal c => exact nomatch href
    | token r' => cases href; exact hmem
  · intro hmem
    exact ⟨.token r, hmem, rfl⟩

/-- **THE TOKEN TELLS THE REFERENCE**: a reference found in a text is the one that its token is
    by itself. -/
theorem parse?_token {text : List Char} {r : Reference} (h : r ∈ inChars text) :
    parse? r.token = some r :=
  Piece.parse?_of_mem_ofText (mem_inChars_iff.mp h)

/-- Two references found with one token are one reference. -/
theorem eq_of_token_eq {text text' : List Char} {r r' : Reference} (h : r ∈ inChars text)
    (h' : r' ∈ inChars text') (htoken : r.token = r'.token) : r = r' := by
  have hparse := parse?_token h
  rw [htoken, parse?_token h'] at hparse
  exact (Option.some.inj hparse).symm

end Reference

end AgentWire
