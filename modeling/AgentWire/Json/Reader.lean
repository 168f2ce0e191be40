import AgentWire.Json.Fault
import AgentWire.Text.Symbol

/-!
# Reading JSON — words, strings and numerals

A reader consumes symbols from the front of a text and returns what it read, or the first
fault from the left. This module holds the readers of what contains no further value: blanks,
the three words, strings with their escapes, numerals. Each returns the rest of the text, and
the rest of a string is shorter than the string.

A string is read as symbols first; bytes that are no text are noticed at its closing quote,
after any other fault in it.
-/

namespace AgentWire.Json

/-- Reads from the front of a text. -/
abbrev Reader := StateT (List Symbol) (Except Fault)

namespace Reader

variable {α : Type}

/-- Stops with a fault of the text. -/
def fail (cause : TextFault) : Reader α :=
  throw (.text cause)

/-- The next symbol, which stays in place. -/
def peek : Reader (Option Symbol) := do
  return (← get).head?

/-- Moves past the next symbol. -/
def advance : Reader Unit :=
  modify List.tail

/-- The number of symbols that are left. -/
def remaining : Reader Nat := do
  return (← get).length

/-- A blank of JSON: space, tab, line feed or carriage return. -/
def isJsonBlank : Symbol → Bool
  | .char ' ' | .char '\t' | .char '\n' | .char '\r' => true
  | _ => false

/-- Moves past blanks. -/
def skipBlanks : Reader Unit :=
  modify (List.dropWhile isJsonBlank)

/-- The next symbol after any blanks, which stays in place. -/
def peekPastBlanks : Reader (Option Symbol) := do
  skipBlanks
  peek

/-- Lifts a computation on symbols that reports faults of the text. -/
def ofText (read : List Symbol → Except TextFault (α × List Symbol)) : Reader α := fun input =>
  match read input with
  | .ok result => .ok result
  | .error cause => .error (.text cause)

end Reader

-- ── Words ─────────────────────────────────────────────────────────────────────────

/-- Reads the given characters and nothing else. -/
def readWord : List Char → List Symbol → Except TextFault (Unit × List Symbol)
  | [], input => .ok ((), input)
  | _ :: _, [] => .error .endInValue
  | c :: word, symbol :: rest =>
    if symbol = .char c then readWord word rest else .error .noWord

-- ── Strings ───────────────────────────────────────────────────────────────────────

/-- The value of a hexadecimal digit of either case. -/
def hexDigit? : Symbol → Option Nat
  | .char c =>
    if c.isDigit then some (c.toNat - '0'.toNat)
    else if 'a' ≤ c ∧ c ≤ 'f' then some (c.toNat - 'a'.toNat + 10)
    else if 'A' ≤ c ∧ c ≤ 'F' then some (c.toNat - 'A'.toNat + 10)
    else none
  | .stray _ => none

/-- The number of bytes that symbols take up. -/
def byteLength : List Symbol → Nat
  | [] => 0
  | symbol :: rest => symbol.byteLength + byteLength rest

/-- Reads four hexadecimal digits. A text with fewer than four bytes left has ended early,
    whatever stands in them. -/
def readHexFour (input : List Symbol) : Except TextFault (Nat × List Symbol) :=
  if byteLength (input.take 4) < 4 then .error .endInString
  else
    match input with
    | a :: b :: c :: d :: rest =>
      match hexDigit? a, hexDigit? b, hexDigit? c, hexDigit? d with
      | some a, some b, some c, some d => .ok (((a * 16 + b) * 16 + c) * 16 + d, rest)
      | _, _, _, _ => .error .badEscape
    | _ => .error .badEscape

/-- A code unit that opens a pair of surrogates. -/
def isLeading (n : Nat) : Bool :=
  0xd800 ≤ n && n ≤ 0xdbff

/-- A code unit that closes a pair of surrogates. -/
def isTrailing (n : Nat) : Bool :=
  0xdc00 ≤ n && n ≤ 0xdfff

/-- The character that a pair of surrogates stands for. -/
def joinSurrogates (leading trailing : Nat) : Char :=
  Char.ofNat (0x10000 + (leading - 0xd800) * 0x400 + (trailing - 0xdc00))

/-- Reads the second half of a pair of surrogates and joins it with the first. -/
def readTrailing (leading : Nat) : List Symbol → Except TextFault (Char × List Symbol)
  | .char '\\' :: .char 'u' :: input =>
    match readHexFour input with
    | .error cause => .error cause
    | .ok (trailing, rest) =>
      if isTrailing trailing then .ok (joinSurrogates leading trailing, rest)
      else .error .loneSurrogate
  | [] => .error .endInString
  | [.char '\\'] => .error .endInString
  | _ => .error .brokenSurrogatePair

/-- Reads the digits of an escape by code unit, and those of a second one where the first opens
    a pair of surrogates. -/
def readCodeUnits (input : List Symbol) : Except TextFault (Char × List Symbol) :=
  match readHexFour input with
  | .error cause => .error cause
  | .ok (n, rest) =>
    if isTrailing n then .error .loneSurrogate
    else if isLeading n then readTrailing n rest
    else .ok (Char.ofNat n, rest)

/-- The character that a letter stands for behind a backslash. -/
def shortEscape? : Char → Option Char
  | '"' => some '"'
  | '\\' => some '\\'
  | '/' => some '/'
  | 'b' => some '\x08'
  | 'f' => some '\x0c'
  | 'n' => some '\n'
  | 'r' => some '\r'
  | 't' => some '\t'
  | _ => none

/-- Reads what follows a backslash. -/
def readEscape : List Symbol → Except TextFault (Char × List Symbol)
  | [] => .error .endInString
  | .char 'u' :: rest => readCodeUnits rest
  | .char c :: rest =>
    match shortEscape? c with
    | some meant => .ok (meant, rest)
    | none => .error .badEscape
  | .stray _ :: _ => .error .badEscape

/-- A symbol that must not stand bare in a string. -/
def isBareControl : Symbol → Bool
  | .char c => c.toNat < 0x20
  | .stray _ => false

theorem length_of_readHexFour {input rest : List Symbol} {n : Nat}
    (h : readHexFour input = .ok (n, rest)) : rest.length + 4 = input.length := by
  unfold readHexFour at h
  split at h
  · cases h
  · split at h
    · split at h
      · cases h; simp
      · cases h
    · cases h

theorem length_of_readTrailing {leading : Nat} {input rest : List Symbol} {c : Char}
    (h : readTrailing leading input = .ok (c, rest)) : rest.length < input.length := by
  unfold readTrailing at h
  split at h
  · rename_i tail
    split at h
    · cases h
    · rename_i n after read
      have := length_of_readHexFour read
      split at h
      · simp only [Except.ok.injEq, Prod.mk.injEq] at h
        rw [← h.2]
        simp only [List.length_cons]; omega
      · cases h
  · cases h
  · cases h
  · cases h

theorem length_of_readCodeUnits {input rest : List Symbol} {c : Char}
    (h : readCodeUnits input = .ok (c, rest)) : rest.length < input.length := by
  unfold readCodeUnits at h
  split at h
  · cases h
  · rename_i n after read
    have four := length_of_readHexFour read
    split at h
    · cases h
    · split at h
      · have := length_of_readTrailing h; omega
      · simp only [Except.ok.injEq, Prod.mk.injEq] at h
        rw [← h.2]; omega

/-- An escape takes up at least one symbol. -/
theorem length_of_readEscape {input rest : List Symbol} {c : Char}
    (h : readEscape input = .ok (c, rest)) : rest.length < input.length := by
  unfold readEscape at h
  split at h
  · cases h
  · have := length_of_readCodeUnits h; simp only [List.length_cons]; omega
  · split at h
    · cases h; simp
    · cases h
  · cases h

/-- Reads the inside of a string and its closing quote: the symbols it stands for. -/
def readStringBody (input : List Symbol) :
    Except TextFault (List Symbol × List Symbol) :=
  match input with
  | [] => .error .endInString
  | .char '"' :: rest => .ok ([], rest)
  | .char '\\' :: rest =>
    match _escape : readEscape rest with
    | .error cause => .error cause
    | .ok (c, after) => (readStringBody after).map fun (body, rest) => (.char c :: body, rest)
  | symbol :: rest =>
    if isBareControl symbol then .error .bareControl
    else (readStringBody rest).map fun (body, rest) => (symbol :: body, rest)
termination_by input.length
decreasing_by
  · have := length_of_readEscape _escape; simp only [List.length_cons]; omega
  · simp

/-- Reads a string after its opening quote. -/
def readText (input : List Symbol) : Except TextFault (String × List Symbol) :=
  match readStringBody input with
  | .error cause => .error cause
  | .ok (body, rest) =>
    match Symbol.characters? body with
    | some chars => .ok (String.ofList chars, rest)
    | none => .error .badUnicode

/-- Reads past what follows a backslash; digits need not stand for a character. -/
def skipEscape : List Symbol → Except TextFault (Unit × List Symbol)
  | [] => .error .endInString
  | .char 'u' :: rest => (readHexFour rest).map fun (_, after) => ((), after)
  | .char c :: rest =>
    match shortEscape? c with
    | some _ => .ok ((), rest)
    | none => .error .badEscape
  | .stray _ :: _ => .error .badEscape

theorem length_of_skipEscape {input rest : List Symbol}
    (h : skipEscape input = .ok ((), rest)) : rest.length < input.length := by
  unfold skipEscape at h
  split at h
  · cases h
  · rename_i tail
    cases read : readHexFour tail with
    | error cause => rw [read] at h; cases h
    | ok result =>
        have := length_of_readHexFour read
        rw [read] at h
        cases h
        simp only [List.length_cons]; omega
  · split at h
    · cases h; simp
    · cases h
  · cases h

/-- Reads past a string after its opening quote, checking no more than its escapes and where it
    ends: the bytes in it need be no text. -/
def skipText (input : List Symbol) : Except TextFault (Unit × List Symbol) :=
  match input with
  | [] => .error .endInString
  | .char '"' :: rest => .ok ((), rest)
  | .char '\\' :: rest =>
    match _escape : skipEscape rest with
    | .error cause => .error cause
    | .ok ((), after) => skipText after
  | symbol :: rest => if isBareControl symbol then .error .bareControl else skipText rest
termination_by input.length
decreasing_by
  · have := length_of_skipEscape _escape; simp only [List.length_cons]; omega
  · simp

-- ── Numerals ──────────────────────────────────────────────────────────────────────

/-- The decimal digits at the front of a text, and the rest. -/
def spanDigits : List Symbol → List Char × List Symbol
  | .char c :: rest =>
    if c.isDigit then
      let (digits, after) := spanDigits rest
      (c :: digits, after)
    else ([], .char c :: rest)
  | input => ([], input)

/-- Reads digits of which at least one must be there. -/
def readDigits (input : List Symbol) : Except TextFault (List Char × List Symbol) :=
  match spanDigits input with
  | ([], []) => .error .endInValue
  | ([], _ :: _) => .error .badNumber
  | (digits, rest) => .ok (digits, rest)

/-- Reads the whole part of a numeral: a zero that stands alone, or digits that do not begin
    with one. -/
def readWhole (input : List Symbol) : Except TextFault (List Char × List Symbol) :=
  match readDigits input with
  | .error cause => .error cause
  | .ok ('0' :: _ :: _, _) => .error .badNumber
  | .ok (digits, rest) => .ok (digits, rest)

/-- Reads the fraction of a numeral, if a point stands there. -/
def readFraction : List Symbol → Except TextFault (List Char × List Symbol)
  | .char '.' :: rest => readDigits rest
  | input => .ok ([], input)

/-- Reads the sign of an exponent, if one stands there: whether it is a minus. -/
def readSign : List Symbol → Bool × List Symbol
  | .char '-' :: rest => (true, rest)
  | .char '+' :: rest => (false, rest)
  | input => (false, input)

/-- Reads the exponent of a numeral, if its letter stands there. -/
def readExponent : List Symbol → Except TextFault (Option (Bool × List Char) × List Symbol)
  | .char 'e' :: rest | .char 'E' :: rest =>
    let (negative, rest) := readSign rest
    (readDigits rest).map fun (digits, rest) => (some (negative, digits), rest)
  | input => .ok (none, input)

/-- Reads a numeral as it is written. -/
def readNumberText (input : List Symbol) : Except TextFault (NumberText × List Symbol) := do
  let (negative, input) :=
    match input with
    | .char '-' :: rest => (true, rest)
    | input => (false, input)
  let (whole, input) ← readWhole input
  let (fraction, input) ← readFraction input
  let (exponent, input) ← readExponent input
  return (⟨negative, whole, fraction, exponent⟩, input)

/-- Reads a number. -/
def readNumber (input : List Symbol) : Except TextFault (Number × List Symbol) := do
  let (text, rest) ← readNumberText input
  match text.number? with
  | some n => return (n, rest)
  | none => throw .numberTooLarge

/-- Reads past a numeral, which may exceed every double; whatever is wrong with it, it is a bad
    number. -/
def skipNumber (input : List Symbol) : Except TextFault (Unit × List Symbol) :=
  match readNumberText input with
  | .ok (_, rest) => .ok ((), rest)
  | .error _ => .error .badNumber

end AgentWire.Json
