import AgentWire.Command.Basic
import AgentWire.Json.Record

/-!
# Envelopes — reading a command from its message

An envelope is a JSON object with the fields `Parameters`, `DocumentContent`, `CommandId`,
`DocumentName`, `OutputS3KeyPrefix` and `OutputS3BucketName`; the middle three are needed, the
others may be missing or null. It makes a command when its id is not blank, its content is an
object and its parameters are strings or lists of strings.

There are two ways to read one. `Command.decode` reads the whole message as a value first, so a
fault of the text comes before any fault of a field, and a field that comes twice counts with
its last value. `Command.read` reads the fields straight from the text, which must not repeat
one.
-/

namespace AgentWire

/-- The fields of a message, before it is known whether they make a command. -/
structure Envelope where
  parameters : Option (List (String × Json))
  content : Document
  id : String
  documentName : String
  outputKeys : Option String
  outputBucket : Option String

namespace Envelope

/-- The fields of a message as far as they have been read. -/
structure Draft where
  parameters : Option (List (String × Json)) := none
  content : Option Document := none
  id : Option String := none
  documentName : Option String := none
  outputKeys : Option String := none
  outputBucket : Option String := none

/-- The envelope of the fields read, or the first needed one that is missing. -/
def Draft.finish (missing : String → Json.Fault) (d : Draft) : Except Json.Fault Envelope :=
  match d.content with
  | none => .error (missing "DocumentContent")
  | some content =>
    match d.id with
    | none => .error (missing "CommandId")
    | some id =>
      match d.documentName with
      | none => .error (missing "DocumentName")
      | some documentName =>
        .ok ⟨d.parameters, content, id, documentName, d.outputKeys, d.outputBucket⟩

-- ── From a text ───────────────────────────────────────────────────────────────────

/-- The envelope as a record. -/
def record : Json.Record Draft Envelope where
  name := "WireCommandPayload"
  fields :=
    [.of "Parameters" (.optional .members) (fun d x => { d with parameters := x }),
      .of "DocumentContent" .any (fun d x => { d with content := some x }),
      .of "CommandId" .text (fun d x => { d with id := some x }),
      .of "DocumentName" .text (fun d x => { d with documentName := some x }),
      .of "OutputS3KeyPrefix" (.optional .text) (fun d x => { d with outputKeys := x }),
      .of "OutputS3BucketName" (.optional .text) (fun d x => { d with outputBucket := x })]
  start := {}
  finish := Draft.finish

-- ── From a value ──────────────────────────────────────────────────────────────────

/-- A value that must be a string. -/
def textOf : Json → Except Json.Fault String
  | .string text => .ok text
  | other => .error (.wrongKind other.found .text)

/-- A value that must be a string, unless it is null. -/
def optionalTextOf : Json → Except Json.Fault (Option String)
  | .null => .ok none
  | other => (textOf other).map some

/-- A value that must be an object, unless it is null. -/
def optionalMembersOf : Json → Except Json.Fault (Option (List (String × Json)))
  | .null => .ok none
  | .object members => .ok (some members)
  | other => .error (.wrongKind other.found .map)

/-- Takes one member of a message into the fields; members of other names say nothing. -/
def Draft.take (d : Draft) (member : String × Json) : Except Json.Fault Draft :=
  if member.1 = "Parameters" then
    (optionalMembersOf member.2).map fun x => { d with parameters := x }
  else if member.1 = "DocumentContent" then
    .ok { d with content := some (Document.ofJson member.2) }
  else if member.1 = "CommandId" then
    (textOf member.2).map fun x => { d with id := some x }
  else if member.1 = "DocumentName" then
    (textOf member.2).map fun x => { d with documentName := some x }
  else if member.1 = "OutputS3KeyPrefix" then
    (optionalTextOf member.2).map fun x => { d with outputKeys := x }
  else if member.1 = "OutputS3BucketName" then
    (optionalTextOf member.2).map fun x => { d with outputBucket := x }
  else .ok d

/-- Takes the members of a message into the fields, up to the first that is refused. -/
def Draft.takeAll (d : Draft) : List (String × Json) → Except Json.Fault Draft
  | [] => .ok d
  | member :: rest =>
    match d.take member with
    | .error fault => .error fault
    | .ok d => takeAll d rest

/-- The envelope that the members of a message make. -/
def ofMembers (members : List (String × Json)) : Except Json.Fault Envelope :=
  match Draft.takeAll {} members with
  | .error fault => .error fault
  | .ok d => d.finish .missingField

-- ── From an envelope to a command ─────────────────────────────────────────────────

/-- The parameters of an envelope. -/
def parameterSet (e : Envelope) : Except Malformation ParameterSet :=
  match e.parameters with
  | none => .ok ParameterSet.empty
  | some members => ParameterSet.ofSection members

/-- The command that an envelope makes, or why it makes none. -/
def command (e : Envelope) : Except Malformation Command :=
  if isBlankText e.id then .error .blankCommandId
  else if e.content.tree.kind ≠ .object then .error (.contentNotObject e.content.tree.kind)
  else
    match e.parameterSet with
    | .error cause => .error cause
    | .ok parameters =>
      .ok
        { id := e.id
          documentName := e.documentName
          content := e.content
          parameters := parameters
          outputBucket := e.outputBucket.getD ""
          outputKeys := e.outputKeys.getD "" }

end Envelope

namespace Command

/-- The command that a value is, or why it is none. -/
def ofDocument (message : Document) : Except Malformation Command :=
  match message.tree with
  | .object members =>
    match Envelope.ofMembers members with
    | .error fault => .error (.badEnvelope fault)
    | .ok envelope => envelope.command
  | other => .error (.notObject other.kind)

/-- Reads a command from the bytes of a message; no reference is resolved. -/
def decode (raw : ByteArray) : Except Fault Command :=
  match Json.parse (Symbol.ofBytes raw) with
  | .error fault => .error (.malformed (.notJson fault))
  | .ok message => (ofDocument message).mapError .malformed

/-- Reads a command from where an envelope stands in a text. -/
def decoder : Json.Decoder Command :=
  Envelope.record.decoder.checked fun envelope =>
    envelope.command.mapError fun cause => .refused (Fault.malformed cause).message

/-- Reads a command straight from the bytes of a message. -/
def read (raw : ByteArray) : Except Json.Fault Command :=
  Json.decode decoder (Symbol.ofBytes raw)

end Command

end AgentWire
