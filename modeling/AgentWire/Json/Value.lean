import AgentWire.Json.Bracketed
import AgentWire.Json.Basic

/-!
# Reading values — any JSON, kept or skipped

`value` reads a tree as it is written, with at most so many brackets inside one another.
`skipValue` moves past a value that nobody wants: it nests without limit, and checks no more
than the shape of the text. `parse` reads a text that is one value and nothing else.
-/

namespace AgentWire.Json

open Reader

/-- How many lists and objects may stand inside one another. -/
def nestingLimit : Nat := 127

/-- Reads a value, given readers for a list and for an object at their opening brackets. -/
def valueWith (list object : Reader Json) : Reader Json := do
  match ← peekStart with
  | .null =>
    nullWord
    return .null
  | .yes =>
    boolWord true
    return .bool true
  | .no =>
    boolWord false
    return .bool false
  | .text => return .string (← stringAtQuote)
  | .number => return .number (← ofText readNumber)
  | .list => list
  | .object => object

/-- Reads a list from its opening bracket on, given a reader for its items. -/
def listOf (item : Reader Json) : Reader Json := do
  advance
  let reversed ← items keeping (fun before => return (← item) :: before) []
  return .array reversed.reverse

/-- Reads one member from the quote of its name on. -/
def memberOf (value : Reader Json) : Reader (String × Json) := do
  let name ← stringAtQuote
  colon
  return (name, ← value)

/-- Reads the members of an object after its opening brace, given a reader for their values. -/
def membersOf (value : Reader Json) : Reader (List (String × Json)) := do
  let reversed ← members keeping (fun before => return (← memberOf value) :: before) []
  return reversed.reverse

/-- Reads an object from its opening brace on, given a reader for its values. -/
def objectOf (value : Reader Json) : Reader Json := do
  advance
  return .object (← membersOf value)

/-- Reads a value in which brackets stand inside one another at most so many times. -/
def value : Nat → Reader Json
  | 0 => valueWith (fail .tooDeep) (fail .tooDeep)
  | levels + 1 => valueWith (listOf (value levels)) (objectOf (value levels))

/-- Moves past a value, given readers for a list and for an object. -/
def skipWith (list object : Reader Unit) : Reader Unit := do
  match ← peekStart with
  | .null => nullWord
  | .yes => boolWord true
  | .no => boolWord false
  | .text =>
    advance
    ofText skipText
  | .number => ofText skipNumber
  | .list => list
  | .object => object

/-- Moves past one member from the quote of its name on. -/
def skipMember (skipped : Reader Unit) : Reader Unit := do
  advance
  ofText skipText
  colon
  skipped

/-- Moves past a value in which brackets stand inside one another at most so many times. -/
def skip : Nat → Reader Unit
  | 0 => skipWith (fail .tooDeep) (fail .tooDeep)
  | levels + 1 =>
    skipWith
      (do advance; items skipping (fun _ => skip levels) ())
      (do advance; members skipping (fun _ => skipMember (skip levels)) ())

/-- Moves past any value. Every bracket is a symbol, so the symbols that are left bound the
    nesting. -/
def skipValue : Reader Unit := do
  skip (← remaining)

/-- Reads a text that holds one thing and nothing else. -/
def whole {α : Type} (read : Reader α) (input : List Symbol) : Except Fault α := do
  let (result, rest) ← read input
  if (rest.dropWhile isJsonBlank).isEmpty then return result
  else throw (.text .trailingText)

/-- The members of an object as they are written, each name once. -/
def sectionMembers (levels : Nat) : Reader (List (String × Json)) := do
  return collect (merged.mergedMembers (← membersOf (value levels)))

/-- The value that a text stands for. -/
def parse (input : List Symbol) : Except Fault Document :=
  (whole (value nestingLimit) input).map Document.ofJson

end AgentWire.Json
