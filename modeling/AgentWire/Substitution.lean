import AgentWire.ParameterSet

/-!
# Substitution — a document with the values in place of its references

Every reference in a string leaf is replaced by the value that it selects; literal text,
names of members and all other values stay as they are. An inserted value is not expanded. But
the text that comes out must hold no reference that selects nothing, whether it stood in a
value or arose where a value meets its surroundings. The first reference without a value, in
the order of the document, is the failure of the whole.
-/

namespace AgentWire

namespace ParameterSet

/-- The failure of a reference that selects nothing. -/
def unresolved (reference : Reference) : Fault :=
  .unresolved reference.name reference.token

/-- The text that a piece stands for. -/
def resolvePiece (p : ParameterSet) : Piece → Except Fault (List Char)
  | .literal c => .ok [c]
  | .token r =>
    match p.select? r with
    | some value => .ok value.toList
    | none => .error (unresolved r)

/-- The text that pieces stand for, or the first failure among them. -/
def resolvePieces (p : ParameterSet) : List Piece → Except Fault (List Char)
  | [] => .ok []
  | piece :: rest =>
    match p.resolvePiece piece with
    | .error fault => .error fault
    | .ok text =>
      match resolvePieces p rest with
      | .error fault => .error fault
      | .ok after => .ok (text ++ after)

/-- The first reference of a text that selects nothing. -/
def firstUnresolved? (p : ParameterSet) (text : List Char) : Option Reference :=
  (Reference.inChars text).find? fun r => (p.select? r).isNone

/-- Replaces the references of a text and checks what comes out. -/
def expand (p : ParameterSet) (text : List Char) : Except Fault (List Char) :=
  match p.resolvePieces (Piece.ofText text) with
  | .error fault => .error fault
  | .ok resolved =>
    match p.firstUnresolved? resolved with
    | some reference => .error (unresolved reference)
    | none => .ok resolved

/-- Whether two opening braces stand next to each other. -/
def hasOpening : List Char → Bool
  | '{' :: '{' :: _ => true
  | _ :: rest => hasOpening rest
  | [] => false

/-- The text with the values in place of its references. A text without two opening braces in a
    row holds no reference. -/
def substituteText (p : ParameterSet) (text : String) : Except Fault String :=
  if hasOpening text.toList then (p.expand text.toList).map String.ofList else .ok text

/-- The content with the values in place of its references. -/
def substitute (p : ParameterSet) (content : Json) : Except Fault Json :=
  content.mapLeavesM p.substituteText

end ParameterSet

/-- A document with the values in place of its references. -/
def Document.substitute (content : Document) (p : ParameterSet) : Except Fault Document :=
  match resolved : p.substitute content.tree with
  | .ok tree => .ok ⟨tree, Json.distinct_of_mapLeavesM content.distinct resolved⟩
  | .error fault => .error fault

end AgentWire
