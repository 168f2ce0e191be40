/-!
# Spots — the characters of a document with their places

A document is read as **spots**: its characters together with the places where they stand, and
behind the last one the end. The end holds the character 0, which no document holds, so a look
ahead needs no case for a text that is over.

Carriage returns and the next-line character end a line like a line feed and are read as one;
a carriage return and a line feed in a row end one line. The line and the paragraph separator
end a line too, but they remain themselves. Columns count characters and offsets count bytes.
-/

namespace AgentWire.Yaml

/-- Where a character stands. -/
structure Place where
  line : Nat
  column : Nat
  offset : Nat
deriving DecidableEq, Inhabited

/-- A character and its place. -/
structure Spot where
  char : Char
  place : Place

-- ── Classes of characters ─────────────────────────────────────────────────────────

/-- What stands behind the last character. -/
def endMark : Char := '\x00'

/-- A character that a document may hold: a tab, a line end, or one that no class of control
    characters has. -/
def isReadable (c : Char) : Bool :=
  let n := c.toNat
  c == '\t' || c == '\n' || c == '\r' || (0x20 ≤ n && n ≤ 0x7e) || n == 0x85 ||
    (0xa0 ≤ n && n ≠ 0xfffe && n ≠ 0xffff)

/-- A space or a tab. -/
def isBlankChar (c : Char) : Bool :=
  c == ' ' || c == '\t'

/-- A character that ends a line. -/
def isBreak (c : Char) : Bool :=
  c == '\n' || c == '\u2028' || c == '\u2029'

/-- The line is over: a line ends here, or the text does. -/
def endsLine (c : Char) : Bool :=
  isBreak c || c == endMark

/-- A word is over: a blank stands here, or the line is over. -/
def endsWord (c : Char) : Bool :=
  isBlankChar c || endsLine c

/-- A character of a name: an ASCII letter or digit, a hyphen or an underscore. -/
def isWordChar (c : Char) : Bool :=
  c.isAlphanum || c == '-' || c == '_'

/-- A character that structures text inside brackets. -/
def isFlowMark (c : Char) : Bool :=
  c == ',' || c == '[' || c == ']' || c == '{' || c == '}'

/-- The value of a hexadecimal digit of either case. -/
def hexValue? (c : Char) : Option Nat :=
  if c.isDigit then some (c.toNat - '0'.toNat)
  else if 'a' ≤ c ∧ c ≤ 'f' then some (c.toNat - 'a'.toNat + 10)
  else if 'A' ≤ c ∧ c ≤ 'F' then some (c.toNat - 'A'.toNat + 10)
  else none

-- ── Placing and looking ahead ─────────────────────────────────────────────────────

/-- The spots of a text whose first character stands in a given place. -/
def spots (place : Place) : List Char → List Spot
  | [] => [⟨endMark, place⟩]
  | '\r' :: '\n' :: rest =>
    ⟨'\n', place⟩ :: spots ⟨place.line + 1, 0, place.offset + 2⟩ rest
  | c :: rest =>
    let read := if c = '\r' ∨ c = '\u0085' then '\n' else c
    let offset := place.offset + c.utf8Size
    ⟨read, place⟩ ::
      spots (if isBreak read then ⟨place.line + 1, 0, offset⟩
        else ⟨place.line, place.column + 1, offset⟩) rest

/-- The character so many spots ahead. -/
def lookAhead (input : List Spot) (n : Nat) : Char :=
  (input[n]?.map (·.char)).getD endMark

/-- The place of the next spot. -/
def placeOf (input : List Spot) : Place :=
  (input.head?.map (·.place)).getD default

/-- A line that begins with a character three times, and with no more in that word. -/
def atMarker (c : Char) : List Spot → Bool
  | a :: b :: d :: rest =>
    a.place.column == 0 && a.char == c && b.char == c && d.char == c &&
      endsWord (lookAhead rest 0)
  | _ => false

/-- A line that parts documents: it begins with three hyphens or with three dots. -/
def partsDocuments (input : List Spot) : Bool :=
  atMarker '-' input || atMarker '.' input

/-- The spots behind any blanks. -/
def skipBlanks (input : List Spot) : List Spot :=
  input.dropWhile fun spot => isBlankChar spot.char

/-- The spots behind the rest of a line that must hold nothing but a comment. -/
def skipLine? (input : List Spot) : Option (List Spot) :=
  let input := skipBlanks input
  let input :=
    if lookAhead input 0 = '#' then input.dropWhile fun spot => !endsLine spot.char else input
  if isBreak (lookAhead input 0) then some input.tail
  else if endsLine (lookAhead input 0) then some input
  else none

/-- The name at the front of a text, which may be empty, and the spots behind it. -/
def spanName (input : List Spot) : String × List Spot :=
  let (name, rest) := input.span fun spot => isWordChar spot.char
  (String.ofList (name.map (·.char)), rest)

end AgentWire.Yaml
