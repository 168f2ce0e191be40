import AgentWire.Yaml.Spot
import AgentWire.Yaml.Token

/-!
# Properties — anchors, tags and directives

What a document says about a node before it, or about tags and its own version on lines that
begin with a percent sign. Tags name types, and every scalar is read as its text, so of a tag
no more is kept than the handle that has to be declared.
-/

namespace AgentWire.Yaml

-- ── Anchors ───────────────────────────────────────────────────────────────────────

/-- A character that may stand right behind the name of an anchor. -/
def endsAnchor (c : Char) : Bool :=
  endsWord c || c == '?' || c == ':' || c == ',' || c == ']' || c == '}' || c == '%' || c == '@' ||
    c == '\x60'

/-- Reads the name of an anchor after its mark. -/
def anchorName (input : List Spot) : Option (String × List Spot) :=
  let (name, rest) := spanName input
  if name ≠ "" ∧ endsAnchor (lookAhead rest 0) then some (name, rest) else none

-- ── Tags ──────────────────────────────────────────────────────────────────────────

/-- A character of a tag, apart from escaped ones; a verbatim tag may hold some marks more. -/
def isTagChar (verbatim : Bool) (c : Char) : Bool :=
  isWordChar c || c == ';' || c == '/' || c == '?' || c == ':' || c == '@' || c == '&' ||
    c == '=' || c == '+' || c == '$' || c == '.' || c == '!' || c == '~' || c == '*' ||
    c == '\'' || c == '(' || c == ')' ||
    (verbatim && (c == ',' || c == '[' || c == ']'))

/-- The number of octets that follow the first one of a character in UTF-8. -/
def octetsBehind? (octet : Nat) : Option Nat :=
  if octet < 0x80 then some 0
  else if 0xc0 ≤ octet ∧ octet < 0xe0 then some 1
  else if 0xe0 ≤ octet ∧ octet < 0xf0 then some 2
  else if 0xf0 ≤ octet ∧ octet < 0xf8 then some 3
  else none

/-- Moves past the characters of a tag. Escaped octets have the form of UTF-8; `behind` of them
    are due. -/
def skipTagChars (verbatim : Bool) : (behind : Nat) → List Spot → Option (List Spot)
  | behind, ⟨'%', _⟩ :: a :: b :: rest =>
    match hexValue? a.char, hexValue? b.char with
    | some high, some low =>
      let octet := high * 16 + low
      match behind with
      | 0 =>
        match octetsBehind? octet with
        | some behind => skipTagChars verbatim behind rest
        | none => none
      | behind + 1 =>
        if 0x80 ≤ octet ∧ octet < 0xc0 then skipTagChars verbatim behind rest else none
    | _, _ => none
  | behind, ⟨c, place⟩ :: rest =>
    if behind ≠ 0 ∨ c = '%' then none
    else if isTagChar verbatim c then skipTagChars verbatim 0 rest
    else some (⟨c, place⟩ :: rest)
  | _, [] => none

/-- Moves past the characters of a tag, of which there must be one. -/
def skipTagText (verbatim : Bool) (input : List Spot) : Option (List Spot) :=
  let c := lookAhead input 0
  if c = '%' ∨ isTagChar verbatim c then skipTagChars verbatim 0 input else none

/-- Reads a tag from its exclamation mark on: the handle that must be declared, if it has one of
    its own. -/
def readTag (inFlow : Bool) (input : List Spot) : Option (Option String × List Spot) := do
  let (handle, rest) ←
    if lookAhead input 1 = '<' then
      let rest ← skipTagText true (input.drop 2)
      if lookAhead rest 0 = '>' then some (none, rest.tail) else none
    else
      let (name, rest) := spanName input.tail
      if lookAhead rest 0 = '!' then
        (skipTagText false rest.tail).map fun rest => (some name, rest)
      else (skipTagChars false 0 rest).map fun rest => (none, rest)
  if (inFlow ∧ lookAhead rest 0 = ',') ∨ endsWord (lookAhead rest 0) then return (handle, rest)
  else none

-- ── Directives ────────────────────────────────────────────────────────────────────

/-- Reads a number of at most nine digits. -/
def versionNumber (input : List Spot) : Option (Nat × List Spot) :=
  let (digits, rest) := input.span fun spot => spot.char.isDigit
  if digits = [] ∨ 9 < digits.length then none
  else some (digits.foldl (fun n spot => n * 10 + (spot.char.toNat - '0'.toNat)) 0, rest)

/-- Reads the version that a line states. -/
def versionText (input : List Spot) : Option (Token × List Spot) := do
  let (major, rest) ← versionNumber (skipBlanks input)
  if lookAhead rest 0 ≠ '.' then none
  else
    let (minor, rest) ← versionNumber rest.tail
    return (.version major minor, rest)

/-- Reads the handle that a line declares, and moves past what it stands for. -/
def handleText (input : List Spot) : Option (Token × List Spot) := do
  let input := skipBlanks input
  if lookAhead input 0 ≠ '!' then none
  else
    let (name, rest) := spanName input.tail
    let closed := lookAhead rest 0 = '!'
    if ¬closed ∧ name ≠ "" then none
    else
      let rest := if closed then rest.tail else rest
      let handle := if closed then "!" ++ name ++ "!" else "!"
      if ¬isBlankChar (lookAhead rest 0) then none
      else
        let rest ← skipTagText true (skipBlanks rest)
        if endsWord (lookAhead rest 0) then return (.tagHandle handle, rest) else none

/-- Reads a line that begins with a percent sign, after the sign. -/
def readDirective (input : List Spot) : Option (Token × List Spot) := do
  let (name, rest) := spanName input
  if ¬endsWord (lookAhead rest 0) then none
  else
    let (token, rest) ←
      match name with
      | "YAML" => versionText rest
      | "TAG" => handleText rest
      | _ => none
    return (token, ← skipLine? rest)

end AgentWire.Yaml
