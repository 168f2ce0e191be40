import AgentWire.Json.Printer
import AgentWire.Status
import AgentWire.Timestamp.Text

/-!
# Plugin results — what the run of a plugin came to

A result has a status, an exit code and times, and an outcome: the output of the plugin, or
why it failed. In its record the outcome is one of the fields `output` and `error`. A record
that holds both is that of a failure; one that holds neither is that of an empty output. Every
field may be left out.
-/

namespace AgentWire

/-- What a plugin produced, or why it failed. -/
inductive Outcome where
  | completed (output : String)
  | failed (error : String)
deriving DecidableEq, Repr

namespace Outcome

instance : Inhabited Outcome := ⟨.completed ""⟩

/-- The output of a plugin that did not fail. -/
def output? : Outcome → Option String
  | completed output => some output
  | failed _ => none

/-- Why a plugin failed. -/
def error? : Outcome → Option String
  | completed _ => none
  | failed error => some error

/-- The outcome that two optional fields stand for. -/
def ofFields (output error : Option String) : Outcome :=
  match error with
  | some error => .failed error
  | none => .completed (output.getD "")

end Outcome

/-- The result of one run of a plugin. -/
structure PluginResult where
  status : Status := .unset
  code : Int32 := 0
  outcome : Outcome := .completed ""
  startTime : Timestamp := .zero
  endTime : Timestamp := .zero
  /-- The bucket that holds uploaded output, empty when there is none. -/
  outputBucket : String := ""
  /-- What the keys of uploaded output begin with. -/
  outputKeys : String := ""
deriving DecidableEq

namespace PluginResult

instance : Inhabited PluginResult := ⟨{}⟩

/-- A run that went well, with its output. -/
def succeeded (output : String) : PluginResult where
  status := .success
  outcome := .completed output

/-- A run that failed, with the reason. -/
def failed (error : String) : PluginResult where
  status := .failed
  code := 1
  outcome := .failed error

/-- A result as its record. -/
def toJson (r : PluginResult) : Json :=
  let outcome : String × Json :=
    match r.outcome with
    | .completed output => ("output", .string output)
    | .failed error => ("error", .string error)
  .object
    [("status", r.status.toJson), ("code", .number (.ofInt32 r.code)), outcome,
      ("startDateTime", r.startTime.toJson), ("endDateTime", r.endTime.toJson),
      ("outputS3BucketName", .string r.outputBucket),
      ("outputS3KeyPrefix", .string r.outputKeys)]

/-- The fields of a record as far as they have been read. -/
structure Draft where
  status : Status := .unset
  code : Int32 := 0
  output : Option String := none
  error : Option String := none
  startTime : Timestamp := .zero
  endTime : Timestamp := .zero
  outputBucket : String := ""
  outputKeys : String := ""

/-- The result of the fields read. -/
def Draft.result (d : Draft) : PluginResult where
  status := d.status
  code := d.code
  outcome := .ofFields d.output d.error
  startTime := d.startTime
  endTime := d.endTime
  outputBucket := d.outputBucket
  outputKeys := d.outputKeys

/-- The record of a result. -/
def record : Json.Record Draft PluginResult where
  name := "PluginResultRecord"
  fields :=
    [.of "status" Status.decoder (fun d x => { d with status := x }),
      .of "code" .signed32 (fun d x => { d with code := x }),
      .of "output" (.optional .text) (fun d x => { d with output := x }),
      .of "error" (.optional .text) (fun d x => { d with error := x }),
      .of "startDateTime" Timestamp.decoder (fun d x => { d with startTime := x }),
      .of "endDateTime" Timestamp.decoder (fun d x => { d with endTime := x }),
      .of "outputS3BucketName" .text (fun d x => { d with outputBucket := x }),
      .of "outputS3KeyPrefix" .text (fun d x => { d with outputKeys := x })]
  start := {}
  finish := fun _ d => .ok d.result

/-- Reads a result from its record. -/
def decoder : Json.Decoder PluginResult :=
  record.decoder

/-- Reads results by the name of their plugin. -/
def mapDecoder : Json.Decoder (NameMap PluginResult) :=
  .dictionary decoder

/-- The results in the bytes of a results document. -/
def parseResults (raw : ByteArray) : Except Fault (NameMap PluginResult) :=
  (Json.decode mapDecoder (Symbol.ofBytes raw)).mapError fun fault =>
    .malformed (.badResults fault)

end PluginResult

end AgentWire
