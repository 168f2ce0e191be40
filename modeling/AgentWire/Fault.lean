import AgentWire.Json.Fault
import AgentWire.Json.Kind

/-!
# Faults — why a message, a time or a file is refused

Four sorts of failure, each with a stable code and an exit code of the command line. A fault
holds its cause as data; `message` has the words, `context` the details that a program reads.
A plugin that failed is no fault: it travels as data in a plugin's result.
-/

namespace AgentWire

/-- The stable codes of failures. -/
inductive ErrorCode where
  | malformedMessage
  | unresolvedParameter
  | invalidTimestamp
  | io
deriving DecidableEq, Repr

namespace ErrorCode

/-- Every code, in the order of the exit codes. -/
def all : List ErrorCode :=
  [malformedMessage, unresolvedParameter, invalidTimestamp, io]

/-- The text of a code. -/
def text : ErrorCode → String
  | malformedMessage => "E_MALFORMED_MESSAGE"
  | unresolvedParameter => "E_UNRESOLVED_PARAMETER"
  | invalidTimestamp => "E_INVALID_TIMESTAMP"
  | io => "E_IO"

/-- The code that a text names. -/
def ofText? (text : String) : Option ErrorCode :=
  all.find? (·.text = text)

/-- The exit code of the command line. -/
def exitCode : ErrorCode → UInt8
  | malformedMessage => 2
  | unresolvedParameter => 3
  | invalidTimestamp => 4
  | io => 5

/-- The name under which a failure is documented. -/
def diagnostic : ErrorCode → String
  | malformedMessage => "agent_message::malformed_message"
  | unresolvedParameter => "agent_message::unresolved_parameter"
  | invalidTimestamp => "agent_message::invalid_timestamp"
  | io => "agent_message::io"

theorem ofText?_text (code : ErrorCode) : ofText? code.text = some code := by
  cases code <;> decide

end ErrorCode

/-- What is wrong with a message that is refused. -/
inductive Malformation where
  /-- The text of a command is no JSON. -/
  | notJson (cause : Json.Fault)
  /-- A command is JSON, but no object. -/
  | notObject (found : Json.Kind)
  /-- A field of a command is missing or of the wrong kind. -/
  | badEnvelope (cause : Json.Fault)
  | blankCommandId
  | contentNotObject (found : Json.Kind)
  /-- A parameter is neither a string nor a list. -/
  | parameterKind (name : String) (found : Json.Kind)
  /-- A parameter is a list that holds more than strings. -/
  | parameterItems (name : String)
  | badResults (cause : Json.Fault)
  | badReply (cause : Json.Fault)
  | badAgentJson (cause : Json.Fault)
  | badAgentYaml
  /-- A reason given in words. -/
  | described (reason : String)
deriving DecidableEq

/-- The words for what is wrong with a message. -/
def Malformation.message : Malformation → String
  | notJson cause => "invalid json: " ++ cause.message
  | notObject found => "expected a JSON object, got " ++ found.describe
  | badEnvelope cause => cause.message
  | blankCommandId => "CommandId must not be empty"
  | contentNotObject found => "DocumentContent must be an object, got " ++ found.describe
  | parameterKind name found =>
    "parameter `" ++ name ++ "` must be a string or a list of strings, got " ++ found.describe
  | parameterItems name => "parameter `" ++ name ++ "` must only contain strings"
  | badResults cause => "invalid plugin results: " ++ cause.message
  | badReply cause => "invalid reply payload: " ++ cause.message
  | badAgentJson cause => "failed to parse agent json: " ++ cause.message
  | badAgentYaml => "failed to parse agent yaml"
  | described reason => reason

/-- Why a text or an instant is no timestamp. -/
inductive TimestampFault where
  /-- The text has another form. -/
  | form
  /-- There is no such date or no such time of day. -/
  | impossible
  /-- The text names a leap second. -/
  | notRepresentable
  /-- The year of an instant has no four digits. -/
  | yearRange
  /-- The instant is a leap second. -/
  | leapSecond
  /-- No instant is so many milliseconds away from the epoch. -/
  | millisRange
  /-- A reason given in words. -/
  | described (reason : String)
deriving DecidableEq, Repr

/-- The words for why a text or an instant is no timestamp. -/
def TimestampFault.message : TimestampFault → String
  | form => "expected the form YYYY-MM-DDTHH:MM:SS.mmmZ"
  | impossible => "input is out of range"
  | notRepresentable => "not representable"
  | yearRange => "year must be between 0000 and 9999"
  | leapSecond => "leap seconds are not representable"
  | millisRange => "out of range unix milliseconds"
  | described reason => reason

/-- A failure to take in a message, a time or a file. -/
inductive Fault where
  | malformed (cause : Malformation)
  /-- A reference to a parameter selects no value. -/
  | unresolved (name token : String)
  | invalidTimestamp (text : String) (cause : TimestampFault)
  /-- A file or the input could not be read. -/
  | io (task source : String)
deriving DecidableEq

namespace Fault

/-- The stable code of a fault. -/
def code : Fault → ErrorCode
  | malformed _ => .malformedMessage
  | unresolved _ _ => .unresolvedParameter
  | invalidTimestamp _ _ => .invalidTimestamp
  | io _ _ => .io

/-- The exit code of the command line. -/
def exitCode (fault : Fault) : UInt8 :=
  fault.code.exitCode

/-- The words for a fault. -/
def message : Fault → String
  | malformed cause => "malformed message: " ++ cause.message
  | unresolved name token =>
    "unresolved parameter reference " ++ token ++ " (parameter `" ++ name ++ "`)"
  | invalidTimestamp text cause => "invalid timestamp `" ++ text ++ "`: " ++ cause.message
  | io task _ => task

/-- The details of a fault for a program to read. -/
def context : Fault → Json
  | malformed cause => .object [("reason", .string cause.message)]
  | unresolved name token => .object [("parameter", .string name), ("reference", .string token)]
  | invalidTimestamp text cause =>
    .object [("text", .string text), ("reason", .string cause.message)]
  | io _ source => .object [("source", .string source)]

/-- What someone can do about a fault. -/
def help? : Fault → Option String
  | malformed _ =>
    some "the message must be a JSON object with CommandId, DocumentName and DocumentContent"
  | unresolved name _ => some ("add `" ++ name ++ "` to the message Parameters section")
  | invalidTimestamp _ _ => some "timestamps use the form 2006-01-02T15:04:05.000Z"
  | io _ _ => none

/-- The record of a fault: code, words and details. -/
def info (fault : Fault) : Json :=
  .object [("code", .string fault.code.text), ("message", .string fault.message),
    ("context", fault.context)]

end Fault

end AgentWire
