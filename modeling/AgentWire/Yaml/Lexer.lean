import AgentWire.Yaml.BlockText
import AgentWire.Yaml.Property
import AgentWire.Yaml.Scalar

/-!
# The lexer — a document as its tokens

Tokens are taken from the front of a text. Two things make this more than cutting. Outside of
brackets, columns open and close lists and mappings: a stack of columns says which are open.
And a key is known as one only by the colon behind it: whatever could begin a key is
remembered, one such place for each level of brackets, and when the colon comes, the tokens
that make it a key are put in front of it. A key ends on its line, at most 1024 bytes behind
its beginning.

Whether a key may begin is a state of its own. It may at the front of a line and behind the
marks that open something, and it may not behind a scalar. Where it may, a tab is no blank.
-/

namespace AgentWire.Yaml

/-- A place where a key may have begun. -/
structure PendingKey where
  /-- No other token can begin here, so a colon must come. -/
  required : Bool
  place : Place
  /-- The number of tokens before it. -/
  count : Nat

/-- The key cannot end at a place any more. -/
def PendingKey.isStale (k : PendingKey) (now : Place) : Bool :=
  k.place.line < now.line || k.place.offset + 1024 < now.offset

/-- Moves past blanks, comments and line ends to the next token, with whether a key may begin
    there. A byte order mark at the front of a line is a blank. -/
def skipGap (inFlow : Bool) :
    (keyAllowed inComment : Bool) → List Spot → Bool × List Spot
  | keyAllowed, _, [] => (keyAllowed, [])
  | keyAllowed, inComment, spot :: rest =>
    let c := spot.char
    if isBreak c then skipGap inFlow (keyAllowed || !inFlow) false rest
    else if c = endMark then (keyAllowed, spot :: rest)
    else if inComment ∨ c = '#' then skipGap inFlow keyAllowed true rest
    else if c = ' ' ∨ (c = '\t' ∧ (inFlow ∨ ¬keyAllowed)) ∨
        (c = '\ufeff' ∧ spot.place.column = 0) then
      skipGap inFlow keyAllowed false rest
    else (keyAllowed, spot :: rest)

/-- A document as far as it has been taken apart. -/
structure Lexer where
  input : List Spot
  /-- The number of brackets that are open. -/
  depth : Nat := 0
  /-- The columns of the lists and mappings that are open outside of brackets, innermost
      first. -/
  columns : List Nat := []
  keyAllowed : Bool := true
  /-- The place where a key may have begun, for every level of brackets, innermost first. -/
  keys : List (Option PendingKey) := [none]
  /-- The tokens, last first, and their number. -/
  tokens : List Token := []
  count : Nat := 0

namespace Lexer

/-- What comes next is inside brackets. -/
def inFlow (s : Lexer) : Bool :=
  s.depth != 0

/-- The place of the next spot. -/
def place (s : Lexer) : Place :=
  placeOf s.input

/-- The least column that belongs to what is open. -/
def leastColumn (s : Lexer) : Nat :=
  match s.columns with
  | [] => 0
  | column :: _ => column + 1

/-- The lexer past so many spots. -/
def skip (s : Lexer) (n : Nat) : Lexer :=
  { s with input := s.input.drop n }

/-- Adds a token. -/
def emit (s : Lexer) (token : Token) : Lexer :=
  { s with tokens := token :: s.tokens, count := s.count + 1 }

/-- Puts a token in front of the ones behind the first `count`. -/
def emitAt (s : Lexer) (count : Nat) (token : Token) : Lexer :=
  let behind := s.count - count
  { s with
    tokens := s.tokens.take behind ++ token :: s.tokens.drop behind
    count := s.count + 1 }

-- ── Columns ───────────────────────────────────────────────────────────────────────

/-- Closes the lists and mappings outside of brackets whose column is refused. -/
def close (s : Lexer) (refused : Nat → Bool) : Lexer :=
  if s.inFlow then s
  else
    let columns := s.columns.dropWhile refused
    let closed := s.columns.length - columns.length
    { s with
      columns := columns
      tokens := List.replicate closed .blockEnd ++ s.tokens
      count := s.count + closed }

/-- Opens a list or a mapping in a column, unless one is open there, with its token behind the
    first `count`. -/
def openAt (s : Lexer) (column count : Nat) (token : Token) : Lexer :=
  if s.inFlow ∨ column < s.leastColumn then s
  else { s.emitAt count token with columns := column :: s.columns }

-- ── Pending keys ──────────────────────────────────────────────────────────────────

/-- Gives up the keys that cannot end here any more. -/
def dropStale (s : Lexer) : Option Lexer := do
  let keys ← s.keys.mapM fun key =>
    match key with
    | none => some none
    | some k =>
      if k.isStale s.place then if k.required then none else some none
      else some (some k)
  return { s with keys := keys }

/-- Gives up the key that may have begun on this level. -/
def dropKey (s : Lexer) : Option Lexer :=
  match s.keys with
  | some k :: rest => if k.required then none else some { s with keys := none :: rest }
  | _ => some s

/-- Remembers that a key may begin here. -/
def saveKey (s : Lexer) : Option Lexer :=
  if s.keyAllowed then do
    let s ← s.dropKey
    let required := !s.inFlow && s.columns.head? == some s.place.column
    return { s with keys := some ⟨required, s.place, s.count⟩ :: s.keys.tail }
  else some s

-- ── Marks ─────────────────────────────────────────────────────────────────────────

/-- Takes a mark of so many characters, behind which a key may begin or not. -/
def mark (s : Lexer) (token : Token) (width : Nat) (keyAllowed : Bool) : Lexer :=
  { (s.skip width).emit token with keyAllowed := keyAllowed }

/-- Takes what parts documents. It closes everything. -/
def documentMark (s : Lexer) (token : Token) : Option Lexer := do
  return (← (s.close fun _ => true).dropKey).mark token 3 false

/-- Takes a directive. -/
def directive (s : Lexer) : Option Lexer := do
  let s ← (s.close fun _ => true).dropKey
  let (token, rest) ← readDirective s.input.tail
  return { s.emit token with input := rest, keyAllowed := false }

/-- Takes an opening bracket. -/
def openBracket (s : Lexer) (token : Token) : Option Lexer := do
  let s ← s.saveKey
  return { s.mark token 1 true with depth := s.depth + 1, keys := none :: s.keys }

/-- Takes a closing bracket. -/
def closeBracket (s : Lexer) (token : Token) : Option Lexer := do
  let s ← s.dropKey
  let s := if s.inFlow then { s with depth := s.depth - 1, keys := s.keys.tail } else s
  return s.mark token 1 false

/-- Takes a comma. -/
def comma (s : Lexer) : Option Lexer := do
  return (← s.dropKey).mark .comma 1 true

/-- Takes the hyphen before an item. -/
def dash (s : Lexer) : Option Lexer :=
  if s.inFlow ∨ s.keyAllowed then do
    return (← (s.openAt s.place.column s.count .blockList).dropKey).mark .dash 1 true
  else none

/-- Takes the question mark before a key. -/
def complexKey (s : Lexer) : Option Lexer :=
  if s.inFlow ∨ s.keyAllowed then do
    let s ← (s.openAt s.place.column s.count .blockMapping).dropKey
    return s.mark .key 1 (!s.inFlow)
  else none

/-- Takes a colon. It makes a key of what has begun as one; behind anything else it stands on
    its own. -/
def colon (s : Lexer) : Option Lexer :=
  match s.keys with
  | some k :: rest =>
    let s := { s.emitAt k.count .key with keys := none :: rest }
    some ((s.openAt k.place.column k.count .blockMapping).mark .value 1 false)
  | _ =>
    if s.inFlow ∨ s.keyAllowed then
      let s := s.openAt s.place.column s.count .blockMapping
      some (s.mark .value 1 !s.inFlow)
    else none

-- ── Texts ─────────────────────────────────────────────────────────────────────────

/-- Takes what may begin a key: a token and the spots behind it. -/
def word (s : Lexer) (read : List Spot → Option (Token × List Spot)) : Option Lexer := do
  let s ← s.saveKey
  let (token, rest) ← read s.input
  return { s.emit token with input := rest, keyAllowed := false }

/-- Takes a plain text. Behind a line end a key may begin. -/
def plainScalar (s : Lexer) : Option Lexer := do
  let s ← s.saveKey
  let (text, broken, rest) ← plain s.inFlow s.leastColumn [] .none s.input
  return { s.emit (.scalar (String.ofList text)) with input := rest, keyAllowed := broken }

/-- Takes a block text. -/
def blockScalar (s : Lexer) (folds : Bool) : Option Lexer := do
  let s ← s.dropKey
  let (text, rest) ← blockText folds s.leastColumn s.input.tail
  return { s.emit (.scalar (String.ofList text)) with input := rest, keyAllowed := true }

/-- A reader of a scalar as a reader of a token. -/
def scalarOf (read : List Spot → Option (List Char × List Spot)) (input : List Spot) :
    Option (Token × List Spot) :=
  (read input.tail).map fun (text, rest) => (.scalar (String.ofList text), rest)

/-- A reader of the name of an anchor as a reader of a token. -/
def nameOf (token : String → Token) (input : List Spot) : Option (Token × List Spot) :=
  (anchorName input.tail).map fun (name, rest) => (token name, rest)

-- ── The whole ─────────────────────────────────────────────────────────────────────

/-- Moves to the next token and closes what it stands outside of. -/
def approach (s : Lexer) : Option Lexer := do
  let (keyAllowed, rest) := skipGap s.inFlow s.keyAllowed false s.input
  let s ← dropStale { s with keyAllowed := keyAllowed, input := rest }
  return s.close (s.place.column < ·)

/-- Takes the token that comes next. -/
def next (s : Lexer) : Option Lexer :=
  let c := lookAhead s.input 0
  let behind := lookAhead s.input 1
  let standsAlone := s.inFlow || endsWord behind
  if c = '%' ∧ s.place.column = 0 then s.directive
  else if atMarker '-' s.input then s.documentMark .documentStart
  else if atMarker '.' s.input then s.documentMark .documentEnd
  else if c = '-' ∧ endsWord behind then s.dash
  else if c = '?' ∧ standsAlone then s.complexKey
  else if c = ':' ∧ standsAlone then s.colon
  else
    match c with
    | '[' => s.openBracket .flowListStart
    | '{' => s.openBracket .flowMappingStart
    | ']' => s.closeBracket .flowListEnd
    | '}' => s.closeBracket .flowMappingEnd
    | ',' => s.comma
    | '*' => s.word (nameOf .alias)
    | '&' => s.word (nameOf .anchor)
    | '!' => s.word fun input => (readTag s.inFlow input).map fun (h, rest) => (.tag h, rest)
    | '\'' => s.word (scalarOf (singleQuoted [] .none))
    | '"' => s.word (scalarOf (doubleQuoted [] .none))
    | _ =>
      if (c = '|' ∨ c = '>') ∧ ¬s.inFlow then s.blockScalar (c = '>')
      else if startsPlain s.inFlow c behind then s.plainScalar
      else none

/-- Takes tokens to the end of the text. Every token takes up a character, so the spots bound
    their number. -/
def run : Nat → Lexer → Option (List Token)
  | 0, _ => none
  | steps + 1, s => do
    let s ← s.approach
    if lookAhead s.input 0 = endMark then
      return (← (s.close fun _ => true).dropKey).tokens.reverse
    else run steps (← s.next)

end Lexer

/-- The tokens of a text, if it has the form of a document. -/
def tokens? (text : List Char) : Option (List Token) :=
  if text.all isReadable then
    let input := spots ⟨0, 0, 0⟩ text
    Lexer.run input.length { input := input }
  else none

end AgentWire.Yaml
