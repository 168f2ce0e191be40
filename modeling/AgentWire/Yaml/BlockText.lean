import AgentWire.Yaml.Spot

/-!
# Block texts — scalars that take whole lines

A block text begins with a bar, which keeps its line ends, or with an arrow, which folds them.
Its lines share a margin, which is stated or found: it is that of the first line that is not
blank, or of the deepest blank line before it. A header says what becomes of the line ends
behind the last line.
-/

namespace AgentWire.Yaml

/-- What becomes of the line ends behind a block text: none is kept, one is, or all are. -/
inductive Chomping where
  | strip
  | clip
  | keep
deriving DecidableEq, Repr

/-- The way in which the end of a text is to be treated, if a character states it. -/
def chomping? : Char → Option Chomping
  | '-' => some .strip
  | '+' => some .keep
  | _ => none

/-- Reads the header after the bar or the arrow: an indentation digit and a chomping sign, both
    of which may be missing, in either order. -/
def blockHeader (input : List Spot) : Option (Chomping × Option Nat × List Spot) :=
  let c := lookAhead input 0
  let d := lookAhead input 1
  let digit (c : Char) : Nat := c.toNat - '0'.toNat
  match chomping? c with
  | some chomping =>
    if d = '0' then none
    else if d.isDigit then some (chomping, some (digit d), input.drop 2)
    else some (chomping, none, input.drop 1)
  | none =>
    if c = '0' then none
    else if c.isDigit then
      match chomping? d with
      | some chomping => some (chomping, some (digit c), input.drop 2)
      | none => some (.clip, some (digit c), input.drop 1)
    else some (.clip, none, input)

/-- Moves past the indentation of lines and past blank lines, to the margin or, where that is
    not known, to the next character: the deepest column met, the line ends passed, last first,
    and what comes next. A tab must not indent. -/
def blockIndent (margin : Option Nat) (deepest : Nat) (breaks : List Char) :
    List Spot → Option (Nat × List Char × List Spot)
  | [] => some (deepest, breaks, [])
  | spot :: rest =>
    let column := spot.place.column
    let before := margin.all (column < ·)
    if spot.char = ' ' ∧ before then blockIndent margin deepest breaks rest
    else if spot.char = '\t' ∧ before then none
    else if isBreak spot.char then
      blockIndent margin (max deepest column) (spot.char :: breaks) rest
    else some (max deepest column, breaks, spot :: rest)

/-- A block text that is being read, last character first. -/
structure BlockText where
  text : List Char := []
  /-- The line end behind the last line. -/
  last : Option Char := none
  /-- The line ends of the blank lines behind it, last first. -/
  more : List Char := []
  /-- The last line begins with a blank. -/
  indented : Bool := false

namespace BlockText

/-- What stands between the last line and the next, last character first. Where both begin at
    the margin, folding makes a line feed a space, and drops it before blank lines. -/
def joint (b : BlockText) (folds indented : Bool) : List Char :=
  if folds ∧ b.last = some '\n' ∧ ¬b.indented ∧ ¬indented then
    if b.more = [] then [' '] else b.more
  else b.more ++ b.last.toList

/-- The text that has been read. -/
def finish (b : BlockText) : Chomping → List Char
  | .strip => b.text.reverse
  | .clip => (b.last.toList ++ b.text).reverse
  | .keep => (b.more ++ b.last.toList ++ b.text).reverse

/-- Reads the lines that stand at a margin. Every line takes up a character, so the spots that
    are left bound the lines. -/
def readLines (folds : Bool) (margin : Nat) :
    Nat → BlockText → List Spot → Option (BlockText × List Spot)
  | 0, b, input => some (b, input)
  | steps + 1, b, input =>
    if (placeOf input).column = margin ∧ lookAhead input 0 ≠ endMark then
      let indented := isBlankChar (lookAhead input 0)
      let (line, rest) := input.span fun spot => !endsLine spot.char
      let text := (line.map (·.char)).reverse ++ b.joint folds indented ++ b.text
      let ended := isBreak (lookAhead rest 0)
      let last := if ended then some (lookAhead rest 0) else none
      match blockIndent (some margin) 0 [] (if ended then rest.tail else rest) with
      | some (_, more, rest) => readLines folds margin steps ⟨text, last, more, indented⟩ rest
      | none => none
    else some (b, input)

end BlockText

/-- Reads a block text after its bar or arrow. Its margin is at least `least`. -/
def blockText (folds : Bool) (least : Nat) (input : List Spot) :
    Option (List Char × List Spot) := do
  let (chomping, stated, input) ← blockHeader input
  let input ← skipLine? input
  let margin := stated.map fun width => (least - 1) + width
  let (deepest, more, input) ← blockIndent margin 0 [] input
  let margin := margin.getD (max deepest (max least 1))
  let (b, input) ← BlockText.readLines folds margin input.length { more := more } input
  return (b.finish chomping, input)

end AgentWire.Yaml
