import AgentWire.Journal
import AgentWire.Plugin.Result
import AgentWire.Text.Blank

/-!
# Runtime statuses — how a reply reports a plugin

A runtime status is a plugin's result in the form of a reply: times as texts, and one output
text. The output of a plugin that did not fail is reported as it is, even when it is empty.
A failure is always reported with a text that says something: the description of the failure,
or words in its place where that is blank.
-/

namespace AgentWire

/-- What a reply says of one plugin. -/
structure RuntimeStatus where
  status : Status := .unset
  code : Int32 := 0
  name : String := ""
  output : String := ""
  startText : String := ""
  endText : String := ""
  outputBucket : String := ""
  outputKeys : String := ""
deriving DecidableEq

namespace RuntimeStatus

instance : Inhabited RuntimeStatus := ⟨{}⟩

/-- What a reply says of a plugin of which only the name and the status are known. -/
def bare (name : String) (status : Status) : RuntimeStatus where
  status := status
  name := name
  startText := Timestamp.zero.text
  endText := Timestamp.zero.text

/-- The text that reports a failure. -/
def failureOutput (status : Status) (error : String) : String :=
  if isBlankText error then
    match status with
    | .unset => "plugin failed"
    | status => "plugin failed with status " ++ status.text
  else error

/-- The text that reports an outcome. -/
def outcomeText (status : Status) : Outcome → String
  | .completed output => output
  | .failed error => failureOutput status error

/-- The runtime status of a result; it has no name yet. -/
def ofResult (r : PluginResult) : RuntimeStatus where
  status := r.status
  code := r.code
  output := outcomeText r.status r.outcome
  startText := r.startTime.text
  endText := r.endTime.text
  outputBucket := r.outputBucket
  outputKeys := r.outputKeys

/-- The runtime status of a plugin's result under the plugin's name. -/
def named (plugin : String) (r : PluginResult) : RuntimeStatus :=
  { ofResult r with name := plugin }

/-- The runtime statuses of all plugins, each under its plugin's name. -/
def ofResults (results : NameMap PluginResult) : NameMap RuntimeStatus :=
  results.mapValues named

/-- The events of reporting a result: a warning for a failure. -/
def eventsOf (r : PluginResult) : List Event :=
  match r.outcome with
  | .completed _ => []
  | .failed error => [.pluginFailed r.status r.code error]

/-- The runtime status of a result, with what is noted on the way. -/
def ofResultTraced (r : PluginResult) : Traced RuntimeStatus :=
  ⟨ofResult r, eventsOf r⟩

/-- The runtime statuses of all plugins, with what is noted on the way. -/
def ofResultsTraced (results : NameMap PluginResult) : Traced (NameMap RuntimeStatus) :=
  ⟨ofResults results, results.values.flatMap eventsOf⟩

/-- A runtime status as a value. -/
def toJson (s : RuntimeStatus) : Json :=
  .object
    [("status", s.status.toJson), ("code", .number (.ofInt32 s.code)), ("name", .string s.name),
      ("output", .string s.output), ("startDateTime", .string s.startText),
      ("endDateTime", .string s.endText), ("outputS3BucketName", .string s.outputBucket),
      ("outputS3KeyPrefix", .string s.outputKeys)]

/-- Reads a runtime status. -/
def decoder : Json.Decoder RuntimeStatus :=
  (Json.Record.ofDefaults "PluginRuntimeStatus" {}
    [.of "status" Status.decoder (fun s x => { s with status := x }),
      .of "code" .signed32 (fun s x => { s with code := x }),
      .of "name" .text (fun s x => { s with name := x }),
      .of "output" .text (fun s x => { s with output := x }),
      .of "startDateTime" .text (fun s x => { s with startText := x }),
      .of "endDateTime" .text (fun s x => { s with endText := x }),
      .of "outputS3BucketName" .text (fun s x => { s with outputBucket := x }),
      .of "outputS3KeyPrefix" .text (fun s x => { s with outputKeys := x })]).decoder

end RuntimeStatus

/-- A map of values as an object, in the order of the names. -/
def NameMap.toJson {α : Type} (m : NameMap α) (value : α → Json) : Json :=
  .object (m.entries.map fun entry => (entry.1, value entry.2))

end AgentWire
