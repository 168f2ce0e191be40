import AgentWire.Yaml.Lexer

/-!
# Nodes — a document as a tree

A node is a scalar, a list or a mapping. A scalar stands for its text, and an alias of a scalar
for the same text; an alias of a list or a mapping stays a reference, since it may stand inside
of what it names. A text holds one document or none.

The readers follow the tokens. Each calls another only behind a token that it takes, so their
number bounds the steps.
-/

namespace AgentWire.Yaml

/-- A node of a document. -/
inductive Node where
  /-- A node that is left out; it reads as an empty scalar. -/
  | empty
  | scalar (text : String)
  | list (items : List Node)
  | mapping (entries : List (Node × Node))
  /-- A list or a mapping that has an anchor elsewhere. -/
  | reference (name : String)

/-- The text of a scalar. -/
def Node.text? : Node → Option String
  | .empty => some ""
  | .scalar text => some text
  | _ => none

/-- Tokens that are being read, with what has been declared. -/
structure TokenStream where
  tokens : List Token
  /-- The nodes with an anchor, last first: the text of a scalar, nothing for any other. -/
  anchors : List (String × Option String) := []
  /-- The handles that tags may have, by their names. -/
  handles : List String := ["!", "!!"]

/-- Reads from the front of the tokens, or fails. -/
abbrev TokenReader := StateT TokenStream Option

namespace TokenReader

/-- The next token, which stays in place. -/
def peek? : TokenReader (Option Token) := do
  return (← get).tokens.head?

/-- Moves past a token. -/
def advance : TokenReader Unit :=
  modify fun s => { s with tokens := s.tokens.tail }

/-- One of some tokens comes next. -/
def isNext (expected : List Token) : TokenReader Bool := do
  match ← peek? with
  | some token => return expected.contains token
  | none => return false

/-- Moves past a token if it comes next, and says whether it did. -/
def take (token : Token) : TokenReader Bool := do
  if ← isNext [token] then
    advance
    return true
  return false

/-- Moves past a token that must come next. -/
def require (token : Token) : TokenReader Unit := do
  unless ← take token do failure

-- ── Properties ────────────────────────────────────────────────────────────────────

/-- Reads a tag, if one comes next, and says whether it did. Its handle must be declared. -/
def tag : TokenReader Bool := do
  match ← peek? with
  | some (.tag handle) =>
    advance
    let declared := (← get).handles
    if handle.all fun name => declared.contains ("!" ++ name ++ "!") then return true else failure
  | _ => return false

/-- Reads an anchor, if one comes next. -/
def anchor? : TokenReader (Option String) := do
  match ← peek? with
  | some (.anchor name) =>
    advance
    return some name
  | _ => return none

/-- Reads an anchor and a tag, in either order: the anchor, and whether there is either. -/
def properties : TokenReader (Option String × Bool) := do
  match ← anchor? with
  | some name =>
    let _ ← tag
    return (some name, true)
  | none =>
    if ← tag then return (← anchor?, true)
    return (none, false)

/-- Declares what an anchor names. -/
def declare (anchor : Option String) (text : Option String) : TokenReader Unit :=
  modify fun s =>
    match anchor with
    | some name => { s with anchors := (name, text) :: s.anchors }
    | none => s

/-- The node that an alias stands for. -/
def resolve (name : String) : TokenReader Node := do
  match (← get).anchors.lookup name with
  | some (some text) => return .scalar text
  | some none => return .reference name
  | none => failure

-- ── Nodes ─────────────────────────────────────────────────────────────────────────

/-- What cannot begin a node behind a key or a value, outside of brackets. -/
def blockStops : List Token := [.key, .value, .blockEnd]

/-- Reads a node unless one of some tokens comes next. -/
def unlessNext (stops : List Token) (node : TokenReader Node) : TokenReader Node := do
  if ← isNext stops then return .empty else node

mutual

/-- Reads a node. Outside of brackets it may be a list or a mapping by its indentation, and
    behind a key a list need not be indented. -/
def node (block behindKey : Bool) : Nat → TokenReader Node
  | 0 => failure
  | steps + 1 => do
    match ← peek? with
    | some (.alias name) =>
      advance
      resolve name
    | _ =>
      let (anchor, described) ← properties
      match ← peek? with
      | some (.scalar text) =>
        advance
        declare anchor (some text)
        return .scalar text
      | some .flowListStart =>
        advance
        declare anchor none
        return .list (← flowItems true steps)
      | some .flowMappingStart =>
        advance
        declare anchor none
        return .mapping (← flowEntries true steps)
      | some token =>
        if behindKey && token = .dash then
          declare anchor none
          return .list (← looseItems steps)
        else if block && token = .blockList then
          advance
          declare anchor none
          return .list (← blockItems steps)
        else if block && token = .blockMapping then
          advance
          declare anchor none
          return .mapping (← blockEntries steps)
        else if described then
          declare anchor (some "")
          return .empty
        else failure
      | none =>
        unless described do failure
        declare anchor (some "")
        return .empty

/-- Reads the items of an indented list through its end. -/
def blockItems : Nat → TokenReader (List Node)
  | 0 => failure
  | steps + 1 => do
    if ← take .blockEnd then return []
    require .dash
    let item ← unlessNext [.dash, .blockEnd] (node true false steps)
    return item :: (← blockItems steps)

/-- Reads the items of a list that is not indented, up to what is no item. -/
def looseItems : Nat → TokenReader (List Node)
  | 0 => failure
  | steps + 1 => do
    unless ← take .dash do return []
    let item ← unlessNext (.dash :: blockStops) (node true false steps)
    return item :: (← looseItems steps)

/-- Reads the entries of an indented mapping through its end. -/
def blockEntries : Nat → TokenReader (List (Node × Node))
  | 0 => failure
  | steps + 1 => do
    if ← take .blockEnd then return []
    require .key
    let key ← unlessNext blockStops (node true true steps)
    let value ←
      if ← take .value then unlessNext blockStops (node true true steps) else pure .empty
    return (key, value) :: (← blockEntries steps)

/-- Reads the items of a list in brackets through its end. -/
def flowItems (first : Bool) : Nat → TokenReader (List Node)
  | 0 => failure
  | steps + 1 => do
    if ← take .flowListEnd then return []
    unless first do require .comma
    if ← take .flowListEnd then return []
    let item ← if ← take .key then flowPair steps else node false false steps
    return item :: (← flowItems false steps)

/-- Reads an item of a list in brackets that is a mapping of one entry, after the mark of its
    key. Where the key is left out, the token behind the mark is passed over. -/
def flowPair : Nat → TokenReader Node
  | 0 => failure
  | steps + 1 => do
    let stops := [.comma, .flowListEnd]
    let key ←
      if ← isNext (.value :: stops) then
        advance
        pure .empty
      else node false false steps
    let value ←
      if ← take .value then unlessNext stops (node false false steps) else pure .empty
    return .mapping [(key, value)]

/-- Reads the entries of a mapping in braces through its end. A key may stand without a
    value. -/
def flowEntries (first : Bool) : Nat → TokenReader (List (Node × Node))
  | 0 => failure
  | steps + 1 => do
    if ← take .flowMappingEnd then return []
    unless first do require .comma
    if ← take .flowMappingEnd then return []
    let stops := [.comma, .flowMappingEnd]
    let entry ←
      if ← take .key then
        let key ← unlessNext (.value :: stops) (node false false steps)
        let value ←
          if ← take .value then unlessNext stops (node false false steps) else pure .empty
        pure (key, value)
      else pure (← node false false steps, .empty)
    return entry :: (← flowEntries false steps)

end

-- ── Documents ─────────────────────────────────────────────────────────────────────

/-- Reads the directives of a document. The version is stated at most once and is 1.1 or 1.2;
    a handle is declared at most once. -/
def directives (versioned : Bool) (handles : List String) : Nat → TokenReader Unit
  | 0 => failure
  | steps + 1 => do
    match ← peek? with
    | some (.version major minor) =>
      advance
      if versioned || major ≠ 1 || (minor ≠ 1 && minor ≠ 2) then failure
      directives true handles steps
    | some (.tagHandle handle) =>
      advance
      if handles.contains handle then failure
      modify fun s => { s with handles := handle :: s.handles }
      directives versioned (handle :: handles) steps
    | _ => return

/-- A document is announced: a directive or three hyphens come next. -/
def isAnnounced : TokenReader Bool := do
  match ← peek? with
  | some (.version _ _) | some (.tagHandle _) | some .documentStart => return true
  | _ => return false

/-- Reads the node of a document, which may be left out behind an announcement. -/
def document (steps : Nat) : TokenReader Node := do
  if ← isAnnounced then
    directives false [] steps
    require .documentStart
    if (← isAnnounced) || (← isNext [.documentEnd]) || (← get).tokens.isEmpty then
      return .empty
  node true false steps

/-- Reads the one document of a text, if there is one, through the end. -/
def single (steps : Nat) : TokenReader (Option Node) := do
  if (← get).tokens.isEmpty then return none
  let root ← document steps
  if (← get).tokens.all (· = .documentEnd) then return some root else failure

end TokenReader

/-- The node of the document in a text, or nothing where there is no document. Fails where the
    text is not of the form, or holds several documents. -/
def parse? (text : String) : Option (Option Node) := do
  let tokens ← tokens? text.toList
  (TokenReader.single (4 * tokens.length + 8)).run' { tokens := tokens }

end AgentWire.Yaml
