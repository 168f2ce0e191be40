import AgentWire.Yaml.Spot

/-!
# Scalars in a line — plain and quoted texts

Three ways of writing a text may go on over several lines: plain, between single quotes and
between double quotes. Whatever a scalar looks like, it stands for its text. What stands
between two of its words is a `Gap`: blanks are kept, but a gap with line ends in it is folded,
so that a single line feed becomes a space and of several the first is dropped.

Each reader collects a text last character first.
-/

namespace AgentWire.Yaml

-- ── Gaps ──────────────────────────────────────────────────────────────────────────

/-- What stands between two words of a scalar, last character first: blanks on a line, or line
    ends, of which the first may have been cancelled by a backslash. -/
inductive Gap where
  | blanks (before : List Char)
  | breaks (first : Option Char) (more : List Char)
deriving DecidableEq

namespace Gap

/-- The gap that is none. -/
def none : Gap := .blanks []

/-- The gap with a blank or a line end behind it. Blanks around line ends are dropped. -/
def add (c : Char) : Gap → Gap
  | .blanks before => if isBreak c then .breaks (some c) [] else .blanks (c :: before)
  | .breaks first more => if isBreak c then .breaks first (c :: more) else .breaks first more

/-- The gap holds a line end. -/
def isBroken : Gap → Bool
  | .blanks _ => false
  | .breaks _ _ => true

/-- The text that a gap stands for, last character first. -/
def folded : Gap → List Char
  | .blanks before => before
  | .breaks (some '\n') [] => [' ']
  | .breaks (some '\n') more => more
  | .breaks first more => more ++ first.toList

end Gap

-- ── Quoted texts ──────────────────────────────────────────────────────────────────

/-- Reads a text in single quotes after the opening one; a doubled quote stands for one. -/
def singleQuoted (text : List Char) (gap : Gap) (input : List Spot) :
    Option (List Char × List Spot) :=
  match input with
  | [] => none
  | spot :: rest =>
    if partsDocuments (spot :: rest) ∨ spot.char = endMark then none
    else if endsWord spot.char then singleQuoted text (gap.add spot.char) rest
    else if spot.char ≠ '\'' then singleQuoted (spot.char :: (gap.folded ++ text)) .none rest
    else if lookAhead rest 0 = '\'' then
      singleQuoted ('\'' :: (gap.folded ++ text)) .none rest.tail
    else some ((gap.folded ++ text).reverse, rest)
termination_by input.length
decreasing_by
  all_goals simp only [List.length_cons, List.length_tail]; omega

/-- The character that a letter stands for behind a backslash. -/
def escaped? : Char → Option Char
  | '0' => some '\x00'
  | 'a' => some '\x07'
  | 'b' => some '\x08'
  | 't' => some '\t'
  | '\t' => some '\t'
  | 'n' => some '\n'
  | 'v' => some '\x0b'
  | 'f' => some '\x0c'
  | 'r' => some '\r'
  | 'e' => some '\x1b'
  | ' ' => some ' '
  | '"' => some '"'
  | '/' => some '/'
  | '\\' => some '\\'
  | 'N' => some '\u0085'
  | '_' => some '\u00a0'
  | 'L' => some '\u2028'
  | 'P' => some '\u2029'
  | _ => none

/-- The number of hexadecimal digits behind a letter that announces a code point. -/
def codeWidth? : Char → Option Nat
  | 'x' => some 2
  | 'u' => some 4
  | 'U' => some 8
  | _ => none

/-- The number that so many hexadecimal digits write. -/
def hexNumber? (width : Nat) (input : List Spot) : Option Nat := do
  let digits ← (List.range width).mapM fun n => hexValue? (lookAhead input n)
  return digits.foldl (fun n d => n * 16 + d) 0

/-- The character whose code point is written in so many hexadecimal digits. -/
def codePoint? (width : Nat) (input : List Spot) : Option Char := do
  let n ← hexNumber? width input
  if n.isValidChar then some (Char.ofNat n) else none

/-- Reads a text in double quotes after the opening one. A backslash at the end of a line
    cancels the line end, and blanks that are written behind a backslash are words. -/
def doubleQuoted (text : List Char) (gap : Gap) (input : List Spot) :
    Option (List Char × List Spot) :=
  match input with
  | [] => none
  | spot :: rest =>
    if partsDocuments (spot :: rest) ∨ spot.char = endMark then none
    else if endsWord spot.char then doubleQuoted text (gap.add spot.char) rest
    else if spot.char = '"' then some ((gap.folded ++ text).reverse, rest)
    else if spot.char ≠ '\\' then doubleQuoted (spot.char :: (gap.folded ++ text)) .none rest
    else
      let letter := lookAhead rest 0
      if isBreak letter then doubleQuoted (gap.folded ++ text) (.breaks none []) rest.tail
      else
        match codeWidth? letter with
        | some width =>
          match codePoint? width rest.tail with
          | some meant =>
            doubleQuoted (meant :: (gap.folded ++ text)) .none (rest.tail.drop width)
          | none => none
        | none =>
          match escaped? letter with
          | some meant => doubleQuoted (meant :: (gap.folded ++ text)) .none rest.tail
          | none => none
termination_by input.length
decreasing_by
  all_goals simp only [List.length_cons, List.length_tail, List.length_drop]; omega

-- ── Plain texts ───────────────────────────────────────────────────────────────────

/-- A plain text may begin with a character before another. -/
def startsPlain (inFlow : Bool) (c next : Char) : Bool :=
  if c == '-' then !isBlankChar next
  else if c == '?' || c == ':' then !inFlow && !endsWord next
  else
    !(endsWord c || isFlowMark c || c == '#' || c == '&' || c == '*' || c == '!' || c == '|' ||
      c == '>' || c == '\'' || c == '"' || c == '%' || c == '@' || c == '\x60')

/-- A colon that is neither part of a plain text inside brackets nor the end of a key there. -/
def isLooseColon (c next : Char) : Bool :=
  c == ':' && (next == '?' || isFlowMark next)

/-- A plain text ends before a character with another behind it. -/
def endsPlain (inFlow : Bool) (c next : Char) : Bool :=
  (c == ':' && endsWord next) || (inFlow && isFlowMark c)

/-- A plain text that goes no further behind a gap: what comes next belongs to another document,
    is a comment, or stands too far to the left. -/
def stopsBehindGap (inFlow : Bool) (least : Nat) (input : List Spot) : Bool :=
  partsDocuments input || lookAhead input 0 == '#' ||
    (!inFlow && (placeOf input).column < least)

/-- Reads a plain text, whose lines after the first stand in a column of at least `least`. It
    comes with whether the gap behind it, which is dropped, holds a line end. -/
def plain (inFlow : Bool) (least : Nat) (text : List Char) (gap : Gap) :
    List Spot → Option (List Char × Bool × List Spot)
  | [] => some (text.reverse, gap.isBroken, [])
  | spot :: rest =>
    if isBlankChar spot.char ∨ isBreak spot.char then
      if spot.char = '\t' ∧ gap.isBroken ∧ spot.place.column < least then none
      else plain inFlow least text (gap.add spot.char) rest
    else if spot.char = endMark ∨ (gap ≠ .none ∧ stopsBehindGap inFlow least (spot :: rest)) then
      some (text.reverse, gap.isBroken, spot :: rest)
    else if inFlow ∧ isLooseColon spot.char (lookAhead rest 0) then none
    else if endsPlain inFlow spot.char (lookAhead rest 0) then
      some (text.reverse, gap.isBroken, spot :: rest)
    else plain inFlow least (spot.char :: (gap.folded ++ text)) .none rest

end AgentWire.Yaml
