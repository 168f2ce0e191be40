import AgentWire.Json.Printer

/-!
# Drafts — messages put together step by step

A draft collects what a message is to say and writes the message. It checks nothing: the
message makes a command only if its id is not blank and its content is an object. Whatever is
set again replaces what was set before; the bucket and the keys for output are written only if
they have been set.
-/

namespace AgentWire

/-- A message that is being put together. -/
structure MessageDraft where
  id : String
  documentName : String
  content : Document := .empty
  parameters : List (String × Json) := []
  /-- The bucket that is to receive output, and what the keys of output begin with. -/
  output : Option (String × String) := none

/-- One step of putting a message together. -/
inductive MessageEdit where
  | setId (id : String)
  | setContent (content : Document)
  /-- Gives a parameter a list of values. -/
  | setValues (name : String) (values : List String)
  /-- Gives a parameter one value, which is written as a bare string. -/
  | setValue (name value : String)
  | setOutput (bucket keys : String)

namespace MessageDraft

/-- The draft after a step. -/
def apply (d : MessageDraft) : MessageEdit → MessageDraft
  | .setId id => { d with id := id }
  | .setContent content => { d with content := content }
  | .setValues name values =>
    { d with parameters := Json.put name (Json.ofStrings values) d.parameters }
  | .setValue name value =>
    { d with parameters := Json.put name (.string value) d.parameters }
  | .setOutput bucket keys => { d with output := some (bucket, keys) }

/-- The draft after several steps. -/
def applyAll (d : MessageDraft) (edits : List MessageEdit) : MessageDraft :=
  edits.foldl apply d

/-- The members that say where output goes. -/
def outputMembers (d : MessageDraft) : List (String × Json) :=
  match d.output with
  | none => []
  | some (bucket, keys) =>
    [("OutputS3KeyPrefix", .string keys), ("OutputS3BucketName", .string bucket)]

/-- The members of the message. -/
def members (d : MessageDraft) : List (String × Json) :=
  [("Parameters", .object d.parameters), ("DocumentContent", d.content.tree),
    ("CommandId", .string d.id), ("DocumentName", .string d.documentName)] ++ d.outputMembers

/-- The message as a value. -/
def toJson (d : MessageDraft) : Json :=
  .object d.members

/-- The message as a text. -/
def encode (d : MessageDraft) : String :=
  d.toJson.compact

end MessageDraft

end AgentWire
