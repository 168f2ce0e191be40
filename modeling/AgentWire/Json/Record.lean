import AgentWire.Json.Value
import AgentWire.NameMap

/-!
# Reading what is wanted — texts, numbers, choices, dictionaries, records

A `Decoder` reads a value of one type straight from the text. What else stands there is a
fault as soon as it is met, so before any fault of the text behind it.

A record is written as an object, whose members may come in any order, or as the list of its
fields in their order. In an object a member nobody knows is skipped, a field that comes twice
is a fault at its second name, and a field that is needed and missing is a fault at the closing
brace. A list may stop early as long as no needed field is missing.
-/

namespace AgentWire.Json

open Reader

/-- Reads a value of one type, with so many levels of nesting to spare. -/
abbrev Decoder (α : Type) := Nat → Reader α

variable {α ρ : Type}

/-- Reads as much of a value as it takes to describe it, and refuses it. -/
def wrongKind (wanted : Wanted) : Reader α := do
  let found ←
    match ← peekStart with
    | .null =>
      nullWord
      pure Found.null
    | .yes =>
      boolWord true
      pure (Found.bool true)
    | .no =>
      boolWord false
      pure (Found.bool false)
    | .text => pure (Found.text (← stringAtQuote))
    | .number => pure (Found.number (← ofText readNumber))
    | .list => pure Found.sequence
    | .object => pure Found.map
  throw (.wrongKind found wanted)

namespace Decoder

-- ── Single values ─────────────────────────────────────────────────────────────────

/-- Any value. -/
def any : Decoder Document := fun levels => do
  return Document.ofJson (← value levels)

/-- A string. -/
def text : Decoder String := fun _ => do
  match ← peekStart with
  | .text => stringAtQuote
  | _ => wrongKind .text

/-- A signed thirty-two bit number. -/
def signed32 : Decoder Int32 := fun _ => do
  match ← peekStart with
  | .number =>
    match ← ofText readNumber with
    | .integer n _ =>
      if -2_147_483_648 ≤ n ∧ n < 2_147_483_648 then return Int32.ofInt n
      else throw (.outOfRange n .signed32)
    | other => throw (.wrongKind (.number other) .signed32)
  | _ => wrongKind .signed32

/-- An unsigned thirty-two bit number. -/
def unsigned32 : Decoder UInt32 := fun _ => do
  match ← peekStart with
  | .number =>
    match ← ofText readNumber with
    | .integer n _ =>
      if 0 ≤ n ∧ n < 4_294_967_296 then return UInt32.ofNat n.toNat
      else throw (.outOfRange n .unsigned32)
    | other => throw (.wrongKind (.number other) .unsigned32)
  | _ => wrongKind .unsigned32

/-- The word for nothing, or a value. -/
def optional (decoder : Decoder α) : Decoder (Option α) := fun levels => do
  match ← peekPastBlanks with
  | some (.char 'n') =>
    nullWord
    return none
  | _ => return some (← decoder levels)

/-- A value that a further check accepts. -/
def checked {β : Type} (decoder : Decoder α) (check : α → Except Fault β) : Decoder β :=
  fun levels => do
    let found ← decoder levels
    ofExcept (check found)

/-- Finds a choice by its name. -/
def choose (known : List String) (ofName? : String → Option α) (name : String) : Reader α :=
  match ofName? name with
  | some choice => pure choice
  | none => throw (.unknownVariant name known)

/-- One of several choices, by name: a string, or an object whose only member has that name and
    holds nothing. -/
def choice (known : List String) (ofName? : String → Option α) : Decoder α := fun levels => do
  match ← peekPastBlanks with
  | none => fail .endInValue
  | some (.char '"') => choose known ofName? (← stringAtQuote)
  | some (.char '{') => nested inside levels
  | some _ => fail .noValue
where
  /-- The inside of a choice that is written as an object. -/
  inside (_ : Nat) : Reader α := do
    match ← peekPastBlanks with
    | none => fail .endInObject
    | some (.char '"') => pure ()
    | some (.char '}') => fail .noValue
    | some _ => fail .keyNotString
    let chosen ← choose known ofName? (← stringAtQuote)
    colon
    match ← peekStart with
    | .null => nullWord
    | _ => wrongKind .unit
    match ← peekPastBlanks with
    | none => fail .endInObject
    | some (.char '}') =>
      advance
      return chosen
    | some _ => fail .noValue

-- ── Objects of any names ──────────────────────────────────────────────────────────

/-- The members of an object, each name once. -/
def members : Decoder (List (String × Json)) := fun levels => do
  match ← peekStart with
  | .object => nested sectionMembers levels
  | _ => wrongKind .map

/-- Reads an entry of a dictionary from the quote of its name on. -/
def entry (decoder : Decoder α) (levels : Nat) (before : NameMap α) : Reader (NameMap α) := do
  let name ← stringAtQuote
  colon
  return before.insert name (← decoder levels)

/-- Values of one type by name; of several under one name the last counts. -/
def dictionary (decoder : Decoder α) : Decoder (NameMap α) := fun levels => do
  match ← peekStart with
  | .object =>
    nested (fun inner => Json.members keeping (entry decoder inner) NameMap.empty) levels
  | _ => wrongKind .map

end Decoder

-- ── Records ───────────────────────────────────────────────────────────────────────

/-- A field of a record: its name, and how its value is read into a record that is being
    filled. -/
structure Field (ρ : Type) where
  name : String
  read : ρ → Decoder ρ

/-- A field whose value is stored by `set`. -/
def Field.of (name : String) (decoder : Decoder α) (set : ρ → α → ρ) : Field ρ :=
  ⟨name, fun state levels => return set state (← decoder levels)⟩

/-- A record: its fields in order, the state before any of them is read, and what the state
    amounts to in the end. `finish` is told how to report a needed field that is missing. -/
structure Record (ρ α : Type) where
  name : String
  fields : List (Field ρ)
  start : ρ
  finish : (String → Fault) → ρ → Except Fault α

namespace Record

/-- A record all of whose fields may be left out. -/
def ofDefaults (name : String) (start : ρ) (fields : List (Field ρ)) : Record ρ ρ :=
  ⟨name, fields, start, fun _ state => .ok state⟩

/-- A list stops before the field of a given name. -/
def tooShort (r : Record ρ α) (missing : String) : Fault :=
  .tooShort (r.fields.findIdx (·.name = missing)) (.record r.name) r.fields.length

/-- Reads a member from the quote of its name on. The state remembers the fields seen. -/
def member (r : Record ρ α) (levels : Nat) (state : List String × ρ) :
    Reader (List String × ρ) := do
  let name ← stringAtQuote
  match r.fields.find? (·.name = name) with
  | none =>
    colon
    skipValue
    return state
  | some field =>
    if name ∈ state.1 then throw (.repeatedField name)
    colon
    return (name :: state.1, ← field.read state.2 levels)

/-- Reads a record that is written as an object, after its opening brace. -/
def asObject (r : Record ρ α) (levels : Nat) : Reader α := do
  let (_, state) ← Json.members keeping (r.member levels) ([], r.start)
  ofExcept (r.finish .missingField state)

/-- Reads the fields of a list in their order until it ends. -/
def positional (levels : Nat) : (first : Bool) → List (Field ρ) → ρ → Reader ρ
  | _, [], state => return state
  | first, field :: rest, state => do
    match ← peekPastBlanks with
    | none => fail .endInList
    | some (.char ']') => return state
    | some symbol =>
      unless first do
        unless symbol = .char ',' do fail .noCommaInList
        advance
        match ← peekPastBlanks with
        | none => fail .endInValue
        | some (.char ']') => fail .trailingComma
        | some _ => pure ()
      positional levels false rest (← field.read state levels)

/-- Reads the closing bracket after the last field. -/
def closeList : Reader Unit := do
  match ← peekPastBlanks with
  | none => fail .endInList
  | some (.char ']') => advance
  | some (.char ',') =>
    advance
    match ← peekPastBlanks with
    | some (.char ']') => fail .trailingComma
    | _ => fail .trailingText
  | some _ => fail .trailingText

/-- Reads a record that is written as a list, after its opening bracket. -/
def asList (r : Record ρ α) (levels : Nat) : Reader α := do
  let state ← positional levels true r.fields r.start
  let result ← ofExcept (r.finish r.tooShort state)
  closeList
  return result

/-- Reads a record. -/
def decoder (r : Record ρ α) : Decoder α := fun levels => do
  match ← peekStart with
  | .object => nested r.asObject levels
  | .list => nested r.asList levels
  | _ => wrongKind (.record r.name)

end Record

/-- Reads a text that is one value of a type and nothing else. -/
def decode (decoder : Decoder α) (input : List Symbol) : Except Fault α :=
  whole (decoder nestingLimit) input

end AgentWire.Json
