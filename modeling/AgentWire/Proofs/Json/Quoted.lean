import AgentWire.Json.Printer
import AgentWire.Proofs.Json.Reading

/-!
# Quoted texts — a string that is written reads back

Each character of a string is written as itself or as an escape, and what is read of it is the
character again:

    readStringBody (escapeChar c ++ input)  =  c, then readStringBody input

So the body of a string is read character by character, up to the closing quote and no further,
whatever characters it is made of.
-/

namespace AgentWire.Json

-- ── Escapes ───────────────────────────────────────────────────────────────────────

/-- A hexadecimal digit that is written has its value. -/
theorem hexDigit?_digitChar : ∀ d < 16, hexDigit? (.char (Nat.digitChar d)) = some d := by
  decide

/-- A hexadecimal digit takes up one byte. -/
theorem byteLength_digitChar : ∀ d < 16, Symbol.byteLength (.char (Nat.digitChar d)) = 1 := by
  decide

/-- Four digits of which the first two are zero are read as the number they stand for. -/
theorem readHexFour_digitChar {high low : Nat} (hhigh : high < 16) (hlow : low < 16)
    (rest : List Symbol) :
    readHexFour (.char '0' :: .char '0' :: .char (Nat.digitChar high) ::
      .char (Nat.digitChar low) :: rest) = .ok (high * 16 + low, rest) := by
  have hlength : byteLength (List.take 4 (.char '0' :: .char '0' ::
      .char (Nat.digitChar high) :: .char (Nat.digitChar low) :: rest)) = 4 := by
    show 1 + (1 + (Symbol.byteLength _ + (Symbol.byteLength _ + 0))) = 4
    rw [byteLength_digitChar high hhigh, byteLength_digitChar low hlow]
  have hzero : hexDigit? (.char '0') = some 0 := rfl
  unfold readHexFour
  rw [hlength, if_neg (by decide)]
  simp only [hzero, hexDigit?_digitChar high hhigh, hexDigit?_digitChar low hlow, Nat.zero_mul,
    Nat.zero_add]

/-- The escape of a control character by its code unit is read as the character. -/
theorem readEscape_codeUnit {c : Char} (hcontrol : c.toNat < 0x20) (rest : List Symbol) :
    readEscape (.char 'u' :: .char '0' :: .char '0' :: .char (Nat.digitChar (c.toNat / 16)) ::
      .char (Nat.digitChar (c.toNat % 16)) :: rest) = .ok (c, rest) := by
  have hjoin : c.toNat / 16 * 16 + c.toNat % 16 = c.toNat := by omega
  have htrailing : isTrailing c.toNat = false := by
    rw [isTrailing, decide_eq_false (by omega), Bool.false_and]
  have hleading : isLeading c.toNat = false := by
    rw [isLeading, decide_eq_false (by omega), Bool.false_and]
  show readCodeUnits _ = _
  unfold readCodeUnits
  rw [readHexFour_digitChar (by omega) (by omega), hjoin]
  dsimp only
  rw [htrailing, hleading, Char.ofNat_toNat]
  rfl

-- ── One character of a string ─────────────────────────────────────────────────────

theorem readStringBody_escape {c : Char} {input rest : List Symbol}
    (h : readEscape input = .ok (c, rest)) :
    readStringBody (.char '\\' :: input) =
      (readStringBody rest).map fun (body, rest) => (.char c :: body, rest) := by
  rw [readStringBody]
  split
  · rename_i heq
    rw [h] at heq
    cases heq
  · rename_i heq
    rw [h] at heq
    cases heq
    rfl

theorem readStringBody_bare {c : Char} (hquote : c ≠ '"') (hescape : c ≠ '\\')
    (hcontrol : ¬c.toNat < 0x20) (input : List Symbol) :
    readStringBody (.char c :: input) =
      (readStringBody input).map fun (body, rest) => (.char c :: body, rest) := by
  rw [readStringBody]
  · rw [if_neg]
    simpa [isBareControl] using hcontrol
  · intro heq
    exact hquote (Symbol.char.inj heq)
  · intro heq
    exact hescape (Symbol.char.inj heq)

/-- **What is written of a character is read as the character.** -/
theorem readStringBody_escapeChar (c : Char) (input : List Symbol) :
    readStringBody ((escapeChar c).map .char ++ input) =
      (readStringBody input).map fun (body, rest) => (.char c :: body, rest) := by
  unfold escapeChar
  split
  · exact readStringBody_escape rfl
  · exact readStringBody_escape rfl
  · exact readStringBody_escape rfl
  · exact readStringBody_escape rfl
  · exact readStringBody_escape rfl
  · exact readStringBody_escape rfl
  · exact readStringBody_escape rfl
  · rename_i hquote hescape _ _ _ _ _
    by_cases hcontrol : c.toNat < 0x20
    · rw [if_pos hcontrol]
      exact readStringBody_escape (readEscape_codeUnit hcontrol input)
    · rw [if_neg hcontrol]
      exact readStringBody_bare hquote hescape hcontrol input

-- ── The whole string ──────────────────────────────────────────────────────────────

theorem readStringBody_flatMap (chars : List Char) (rest : List Symbol) :
    readStringBody ((chars.flatMap escapeChar).map .char ++ .char '"' :: rest) =
      .ok (chars.map .char, rest) := by
  induction chars with
  | nil => exact readStringBody.eq_2 rest
  | cons c chars ih =>
      rw [List.flatMap_cons, List.map_append, List.append_assoc, readStringBody_escapeChar, ih]
      rfl

/-- **A STRING THAT IS WRITTEN READS BACK**, from its opening quote through its closing one. -/
theorem stringAtQuote_renderString (text : String) (rest : List Symbol) :
    stringAtQuote ((renderString text).map .char ++ rest) = .ok (text, rest) := by
  have hbody : readText ((text.toList.flatMap escapeChar).map .char ++ .char '"' :: rest) =
      .ok (text, rest) := by
    unfold readText
    rw [readStringBody_flatMap]
    have hchars := Symbol.characters?_ofString text
    unfold Symbol.ofString at hchars
    dsimp only
    rw [hchars]
    dsimp only
    rw [String.ofList_toList]
  have hinput : (renderString text).map Symbol.char ++ rest =
      .char '"' :: ((text.toList.flatMap escapeChar).map .char ++ .char '"' :: rest) := by
    simp [renderString]
  rw [hinput]
  unfold stringAtQuote
  rw [Reader.bind_ok (Reader.advance_cons _ _)]
  exact Reader.ofText_ok hbody

end AgentWire.Json
