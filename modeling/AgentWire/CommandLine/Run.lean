import AgentWire.Agent.File
import AgentWire.Command.Resolution
import AgentWire.CommandLine.Help
import AgentWire.Reply.Assembly

/-!
# Runs — what an invocation of the program comes to

A run reads its sources through a `Host`, and ends with an exit code, what goes to the output,
and notices beside it. What is done between reading and writing is a function of the bytes read:
`parseReport`, `referencesReport` and `replyReport`. A failure exits with the code of its fault;
its record goes to the output if JSON is asked for, and its words to the notices otherwise.
-/

namespace AgentWire.CommandLine

/-- What the program needs of its surroundings: the bytes of a file or why they cannot be had,
    those of the input, and the time. -/
structure Host (m : Type → Type) where
  file : String → m (Except String ByteArray)
  input : m (Except String ByteArray)
  now : m Timestamp

/-- The end of a run. -/
structure Exit where
  code : UInt8
  output : String
  notices : List String
deriving DecidableEq, Repr

/-- What a task writes, or why it fails, and what is noted on the way. -/
abbrev Report := Traced (Except Fault String)

-- ── From bytes to reports ─────────────────────────────────────────────────────────

/-- Reports the command in a message, with its references resolved. -/
def parseReport (message : ByteArray) : Report :=
  let traced := Command.parseTraced message
  ⟨traced.result.map fun command => command.toJson.spread, traced.events⟩

/-- A reference as an entry of a report: what it asks for, and whether there is a value. -/
def referenceEntry (p : ParameterSet) (r : Reference) : Json :=
  .object
    [("name", .string r.name),
      ("index",
        match r.index with
        | some index => .number (.ofUInt64 index)
        | none => .null),
      ("token", .string r.token), ("resolved", .bool (p.select? r).isSome)]

/-- The references of a command: their tokens a line each, or entries in JSON. -/
def referencesText (json : Bool) (c : Command) : String :=
  if json then
    (Json.array (c.references.map (referenceEntry c.completedParameters))).compact
  else joinLines (c.references.map Reference.token)

/-- Reports the references in a message. -/
def referencesReport (json : Bool) (message : ByteArray) : Report :=
  let traced := Command.decodeTraced message
  ⟨traced.result.map (referencesText json), traced.events⟩

/-- Reports the reply of an agent on the results of plugins at a time. -/
def replyReport (results : NameMap PluginResult) (time : Timestamp) (agent : Agent) : Report :=
  let traced := RuntimeStatus.ofResultsTraced results
  ⟨.ok (Reply.assemble agent.version traced.result time agent).encode, traced.events⟩

-- ── Sources ───────────────────────────────────────────────────────────────────────

/-- A path that means the input: a hyphen, with nothing behind it that leads elsewhere. -/
def isInputPath (path : String) : Bool :=
  match path.splitOn "/" with
  | "-" :: rest => rest.all fun part => part = "" || part = "."
  | _ => false

variable {m : Type → Type} [Monad m]

/-- The bytes of a file, or those of the input. -/
def readSource (host : Host m) (path : Option String) : ExceptT Fault m ByteArray :=
  match path.filter (!isInputPath ·) with
  | some path => ExceptT.mk do
    return (← host.file path).mapError (Fault.io ("failed to read " ++ path))
  | none => ExceptT.mk do
    return (← host.input).mapError (Fault.io "failed to read stdin")

/-- The text that bytes are. -/
def textOf (bytes : ByteArray) : Except String String :=
  match String.fromUTF8? bytes with
  | some text => .ok text
  | none => .error "stream did not contain valid UTF-8"

/-- The identity in a file. -/
def readAgent (host : Host m) (path : String) : ExceptT Fault m Agent := ExceptT.mk do
  match (← host.file path).bind textOf with
  | .ok contents => return Agent.parseFile path contents
  | .error source => return .error (.io ("failed to read agent file " ++ path) source)

/-- The identity that a reply starts from: that in a file, or that of this program. -/
def baseAgent (host : Host m) : Option String → ExceptT Fault m Agent
  | some path => readAgent host path
  | none => pure Agent.builtIn

/-- The time of a reply: a given one, or the present. -/
def replyTime (host : Host m) : Option String → ExceptT Fault m Timestamp
  | some text => ExceptT.mk (pure (Timestamp.parse text))
  | none => ExceptT.lift host.now

-- ── Tasks ─────────────────────────────────────────────────────────────────────────

/-- Reports the reply made of some sources. Of several bad ones the results come first, then
    the file of the agent, then the time. -/
def reply (host : Host m) (sources : ReplySources) : ExceptT Fault m Report := do
  let document ← readSource host (some sources.results)
  let results ← ExceptT.mk (pure (PluginResult.parseResults document))
  let base ← baseAgent host sources.agentFile
  let time ← replyTime host sources.time
  return replyReport results time (base.override sources.overrides)

/-- The report of a task. -/
def perform (host : Host m) (json : Bool) : Task → ExceptT Fault m Report
  | .parse message => parseReport <$> readSource host message
  | .references message => referencesReport json <$> readSource host message
  | .reply sources => reply host sources
  | .completions shell => pure ⟨.ok shell.script, []⟩

-- ── Ends ──────────────────────────────────────────────────────────────────────────

/-- A text as output: with a line end, unless it is empty. -/
def asOutput (text : String) : String :=
  if text = "" then "" else text ++ "\n"

/-- An event as a notice. -/
def noticeOf (e : Event) : String :=
  e.level.text ++ " " ++ e.message ++
    String.join (e.fields.map fun field => " " ++ field.1 ++ "=" ++ field.2)

/-- The notices for events: for all of them, or for the warnings. -/
def noticesOf (verbose : Bool) (events : List Event) : List String :=
  (events.filter fun e => verbose || e.level = .warn).map noticeOf

/-- The end of a run that failed. -/
def failure (json : Bool) (fault : Fault) : Exit where
  code := fault.exitCode
  output := if json then asOutput fault.info.compact else ""
  notices := if json then [] else [fault.message] ++ fault.help?.toList

/-- The end of a run with a report. -/
def Report.exit (json verbose : Bool) (report : Report) : Exit :=
  let notices := noticesOf verbose report.events
  match report.result with
  | .ok text => ⟨0, asOutput text, notices⟩
  | .error fault => { failure json fault with notices := notices ++ (failure json fault).notices }

/-- The end of a run without a task. -/
def Stop.exit : Stop → Exit
  | .help name => ⟨0, asOutput (helpText name), []⟩
  | .version => ⟨0, asOutput versionText, []⟩
  | .misuse => ⟨2, "", ["wrong usage", programHelp]⟩

/-- Runs the program with arguments. -/
def run (host : Host m) (args : List String) : m Exit := do
  match readInvocation args with
  | .error stop => return stop.exit
  | .ok invocation =>
    match ← (perform host invocation.json invocation.task).run with
    | .error fault => return failure invocation.json fault
    | .ok report => return Report.exit invocation.json invocation.verbose report

end AgentWire.CommandLine
