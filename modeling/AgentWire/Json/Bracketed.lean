import AgentWire.Json.Reader

/-!
# Lists and objects — what stands between brackets

The loops over the items of a list and over the members of an object, for any reader of an
item or a member. A loop carries a state through its items. It turns as often as there are
commas, so the symbols that are left bound it, and a loop that has used them all has met the
end of the text.
-/

namespace AgentWire.Json

open Reader

/-- What may begin a value. -/
inductive Start where
  | null
  | yes
  | no
  | text
  | number
  | list
  | object
deriving DecidableEq, Repr

/-- What kind of value a symbol begins. -/
def startOf? : Symbol → Option Start
  | .char 'n' => some .null
  | .char 't' => some .yes
  | .char 'f' => some .no
  | .char '"' => some .text
  | .char '[' => some .list
  | .char '{' => some .object
  | .char c => if c = '-' ∨ c.isDigit then some .number else none
  | .stray _ => none

/-- What kind of value comes next, after any blanks; it stays in place. -/
def peekStart : Reader Start := do
  match ← peekPastBlanks with
  | none => fail .endInValue
  | some symbol =>
    match startOf? symbol with
    | some start => return start
    | none => fail .noValue

/-- Reads the word for nothing. -/
def nullWord : Reader Unit :=
  ofText (readWord ['n', 'u', 'l', 'l'])

/-- Reads the word for a truth value. -/
def boolWord (b : Bool) : Reader Unit :=
  ofText (readWord (if b then ['t', 'r', 'u', 'e'] else ['f', 'a', 'l', 's', 'e']))

/-- Reads a string from its opening quote on. -/
def stringAtQuote : Reader String := do
  advance
  ofText readText

/-- Reads the colon between a name and its value. -/
def colon : Reader Unit := do
  match ← peekPastBlanks with
  | none => fail .endInObject
  | some (.char ':') => advance
  | some _ => fail .noColon

/-- The faults of a comma with nothing behind it. They differ between values that are kept and
    values that are skipped. -/
structure AfterComma where
  /-- A comma before the end of a list. -/
  listClosed : TextFault
  /-- A comma before the end of an object. -/
  objectClosed : TextFault
  /-- A comma in an object before the end of the text. -/
  objectEnds : TextFault

/-- The faults after a comma among values that are kept. -/
def keeping : AfterComma := ⟨.trailingComma, .trailingComma, .endInValue⟩

/-- The faults after a comma among values that are skipped. -/
def skipping : AfterComma := ⟨.noValue, .keyNotString, .endInObject⟩

variable {σ α : Type}

/-- Reads the items after the first of a list, through the closing bracket. -/
def moreItems (after : AfterComma) (item : σ → Reader σ) : Nat → σ → Reader σ
  | 0, _ => fail .endInList
  | turns + 1, state => do
    match ← peekPastBlanks with
    | none => fail .endInList
    | some (.char ']') =>
      advance
      return state
    | some (.char ',') =>
      advance
      match ← peekPastBlanks with
      | none => fail .endInValue
      | some (.char ']') => fail after.listClosed
      | some _ => moreItems after item turns (← item state)
    | some _ => fail .noCommaInList

/-- Reads the items of a list after its opening bracket, through the closing one. -/
def items (after : AfterComma) (item : σ → Reader σ) (start : σ) : Reader σ := do
  match ← peekPastBlanks with
  | none => fail .endInList
  | some (.char ']') =>
    advance
    return start
  | some _ =>
    let state ← item start
    moreItems after item (← remaining) state

/-- Reads the members after the first of an object, through the closing brace. -/
def moreMembers (after : AfterComma) (member : σ → Reader σ) : Nat → σ → Reader σ
  | 0, _ => fail .endInObject
  | turns + 1, state => do
    match ← peekPastBlanks with
    | none => fail .endInObject
    | some (.char '}') =>
      advance
      return state
    | some (.char ',') =>
      advance
      match ← peekPastBlanks with
      | none => fail after.objectEnds
      | some (.char '}') => fail after.objectClosed
      | some (.char '"') => moreMembers after member turns (← member state)
      | some _ => fail .keyNotString
    | some _ => fail .noCommaInObject

/-- Reads the members of an object after its opening brace, through the closing one. Each
    member is read from the quote of its name on. -/
def members (after : AfterComma) (member : σ → Reader σ) (start : σ) : Reader σ := do
  match ← peekPastBlanks with
  | none => fail .endInObject
  | some (.char '}') =>
    advance
    return start
  | some (.char '"') =>
    let state ← member start
    moreMembers after member (← remaining) state
  | some _ => fail .keyNotString

/-- Moves past an opening bracket and reads what is inside, one level of nesting further down. -/
def nested (inside : Nat → Reader α) : Nat → Reader α
  | 0 => fail .tooDeep
  | levels + 1 => do
    advance
    inside levels

end AgentWire.Json
