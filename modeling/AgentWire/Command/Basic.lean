import AgentWire.Json.Printer
import AgentWire.Substitution

/-!
# Commands — what an agent is asked to run

A command names a document, carries its content and the values of its parameters, and says
where the output of its plugins is to be uploaded. Its wire form always has the same six
fields in the same order, every parameter as a list.
-/

namespace AgentWire

/-- One command. -/
structure Command where
  id : String
  documentName : String
  content : Document
  parameters : ParameterSet
  /-- The bucket that receives output, empty when there is no upload. -/
  outputBucket : String
  /-- What the keys of uploaded output begin with. -/
  outputKeys : String
deriving DecidableEq

namespace Command

/-- The section in which the parameters of a command are sent: one after the other is put under its
    name, as a list. -/
def sentParameters (c : Command) : List (String × Json) :=
  Json.collect <| c.parameters.toList.map fun parameter =>
    (parameter.1, .array (parameter.2.map .string))

/-- A command as a value. -/
def toJson (c : Command) : Json :=
  .object
    [("Parameters", .object c.sentParameters), ("DocumentContent", c.content.tree),
      ("CommandId", .string c.id), ("DocumentName", .string c.documentName),
      ("OutputS3KeyPrefix", .string c.outputKeys), ("OutputS3BucketName", .string c.outputBucket)]

/-- The wire form of a command. -/
def encode (c : Command) : String :=
  c.toJson.compact

/-- The references in the content of a command, in the order of the document. -/
def references (c : Command) : List Reference :=
  Reference.inContent c.content.tree

/-- The parameters of a command, completed with the defaults of its document. -/
def completedParameters (c : Command) : ParameterSet :=
  c.parameters.withDefaults c.content.tree

end Command

end AgentWire
