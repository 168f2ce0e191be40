import AgentWire.Json.Basic

/-!
# Writing JSON — the compact and the spread form

The compact form has no blanks at all; it is what goes over the wire. The spread form puts
every item and every member on a line of its own, two spaces further in than the bracket that
holds it, with one space after a colon; an empty list or object stays closed up. Both write
strings and numbers alike: a string escapes the quote, the backslash and the controls below
the space and shows everything else as itself.
-/

namespace AgentWire.Json

/-- One character of a string as it is written. -/
def escapeChar (c : Char) : List Char :=
  match c with
  | '"' => ['\\', '"']
  | '\\' => ['\\', '\\']
  | '\x08' => ['\\', 'b']
  | '\x0c' => ['\\', 'f']
  | '\n' => ['\\', 'n']
  | '\r' => ['\\', 'r']
  | '\t' => ['\\', 't']
  | c =>
    if c.toNat < 0x20 then
      ['\\', 'u', '0', '0', Nat.digitChar (c.toNat / 16), Nat.digitChar (c.toNat % 16)]
    else [c]

/-- A string between its quotes. -/
def renderString (text : String) : List Char :=
  '"' :: text.toList.flatMap escapeChar ++ ['"']

/-- A truth value as a word. -/
def renderBool : Bool → List Char
  | true => ['t', 'r', 'u', 'e']
  | false => ['f', 'a', 'l', 's', 'e']

/-- The word for nothing. -/
def renderNull : List Char :=
  ['n', 'u', 'l', 'l']

-- ── The compact form ──────────────────────────────────────────────────────────────

mutual

/-- A value in the compact form. -/
def render : Json → List Char
  | .null => renderNull
  | .bool b => renderBool b
  | .number n => n.render
  | .string text => renderString text
  | .array items => '[' :: renderItems items ++ [']']
  | .object members => '{' :: renderMembers members ++ ['}']

/-- The items of a list, with commas between them. -/
def renderItems : List Json → List Char
  | [] => []
  | item :: rest => render item ++ renderMoreItems rest

/-- The items after the first of a list, each behind a comma. -/
def renderMoreItems : List Json → List Char
  | [] => []
  | item :: rest => ',' :: render item ++ renderMoreItems rest

/-- The members of an object, with commas between them. -/
def renderMembers : List (String × Json) → List Char
  | [] => []
  | (name, value) :: rest =>
    renderString name ++ ':' :: render value ++ renderMoreMembers rest

/-- The members after the first of an object, each behind a comma. -/
def renderMoreMembers : List (String × Json) → List Char
  | [] => []
  | (name, value) :: rest =>
    ',' :: renderString name ++ ':' :: render value ++ renderMoreMembers rest

end

/-- A value in the compact form, as a text. -/
def compact (value : Json) : String :=
  String.ofList value.render

-- ── The spread form ───────────────────────────────────────────────────────────────

/-- A new line, indented by two spaces for each level. -/
def newLine (level : Nat) : List Char :=
  '\n' :: List.replicate (2 * level) ' '

mutual

/-- A value in the spread form, standing at a level of indentation. -/
def renderSpread (level : Nat) : Json → List Char
  | .null => renderNull
  | .bool b => renderBool b
  | .number n => n.render
  | .string text => renderString text
  | .array [] => ['[', ']']
  | .array (item :: rest) =>
    '[' :: newLine (level + 1) ++ renderSpread (level + 1) item ++
      renderSpreadItems (level + 1) rest ++ newLine level ++ [']']
  | .object [] => ['{', '}']
  | .object ((name, value) :: rest) =>
    '{' :: newLine (level + 1) ++ renderString name ++ [':', ' '] ++
      renderSpread (level + 1) value ++ renderSpreadMembers (level + 1) rest ++
      newLine level ++ ['}']

/-- The items after the first of a list, each on a line of its own. -/
def renderSpreadItems (level : Nat) : List Json → List Char
  | [] => []
  | item :: rest =>
    ',' :: newLine level ++ renderSpread level item ++ renderSpreadItems level rest

/-- The members after the first of an object, each on a line of its own. -/
def renderSpreadMembers (level : Nat) : List (String × Json) → List Char
  | [] => []
  | (name, value) :: rest =>
    ',' :: newLine level ++ renderString name ++ [':', ' '] ++ renderSpread level value ++
      renderSpreadMembers level rest

end

/-- A value in the spread form, as a text without a final line end. -/
def spread (value : Json) : String :=
  String.ofList (value.renderSpread 0)

end AgentWire.Json
