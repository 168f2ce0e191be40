import AgentWire.Fault
import AgentWire.Status

/-!
# The journal — what is noted beside the results

Reading a command and reporting plugin results note events. An event holds what happened;
its level, its words and its fields are read off it. Events travel beside the result and never
enter it: where they go is decided afterwards, by a `Destination`, which a caller chooses with a
`MessageLog`.
-/

namespace AgentWire

/-- How serious an event is. -/
inductive Level where
  | debug
  | warn
deriving DecidableEq, Repr

/-- The text of a level. -/
def Level.text : Level → String
  | debug => "DEBUG"
  | warn => "WARN"

/-- Something worth noting. -/
inductive Event where
  /-- A message of so many bytes was refused. -/
  | rejected (fault : Fault) (bytes : Nat)
  /-- A command was read, with so many parameters. -/
  | decoded (commandId documentName : String) (parameters : Nat)
  /-- So many parameters came from the defaults of the document. -/
  | defaulted (commandId : String) (defaults : Nat)
  /-- A reference could not be resolved. -/
  | unresolved (commandId : String) (fault : Fault)
  /-- Every reference was resolved. -/
  | resolved (commandId : String)
  /-- A plugin failed. -/
  | pluginFailed (status : Status) (code : Int32) (error : String)
deriving DecidableEq

namespace Event

/-- The level of an event. -/
def level : Event → Level
  | rejected _ _ | unresolved _ _ | pluginFailed _ _ _ => .warn
  | decoded _ _ _ | defaulted _ _ | resolved _ => .debug

/-- The words of an event. -/
def message : Event → String
  | rejected _ _ => "rejecting command message"
  | decoded _ _ _ => "decoded command message"
  | defaulted _ _ => "filled parameters from document defaults"
  | unresolved _ _ => "parameter substitution failed"
  | resolved _ => "resolved document parameters"
  | pluginFailed _ _ _ => "plugin reported an error"

/-- A count as a text. -/
def countText (n : Nat) : String :=
  String.ofList (Numeral.ofNat n)

/-- The fields of an event, in order. -/
def fields : Event → List (String × String)
  | rejected fault bytes => [("error", fault.message), ("bytes", countText bytes)]
  | decoded commandId documentName parameters =>
    [("command_id", commandId), ("document_name", documentName),
      ("parameters", countText parameters)]
  | defaulted commandId defaults =>
    [("command_id", commandId), ("defaults", countText defaults)]
  | unresolved commandId fault => [("command_id", commandId), ("error", fault.message)]
  | resolved commandId => [("command_id", commandId)]
  | pluginFailed status code error =>
    [("status", status.text), ("code", String.ofList (Numeral.ofInt code.toInt)),
      ("error", error)]

end Event

/-- A result and the events noted on the way to it. -/
structure Traced (α : Type) where
  result : α
  events : List Event

/-- Where events go: to a recipient of the caller's own, to whoever listens by default, or
    nowhere. -/
inductive Destination where
  | own
  | ambient
  | nowhere
deriving DecidableEq, Repr

/-- The events that each recipient got. -/
structure Journal where
  own : List Event
  ambient : List Event
deriving DecidableEq

/-- Sends events to where they go. -/
def Destination.deliver (events : List Event) : Destination → Journal
  | own => ⟨events, []⟩
  | ambient => ⟨[], events⟩
  | nowhere => ⟨[], []⟩

/-- The result of something traced, and what each recipient got of its events. -/
def Traced.sendTo {α : Type} (traced : Traced α) (destination : Destination) : α × Journal :=
  (traced.result, destination.deliver traced.events)

-- ── Logs ──────────────────────────────────────────────────────────────────────────

/-- A dispatcher that a caller can make: with a recipient behind it, or with none. -/
inductive Dispatcher where
  | recipient
  | silent
deriving DecidableEq, Repr

/-- Where a caller wants events to go: to a dispatcher, or, without one, to whoever listens by
    default. -/
structure MessageLog where
  dispatcher : Option Dispatcher := none
deriving DecidableEq, Repr

namespace MessageLog

/-- Events go to a dispatcher. -/
def new (dispatcher : Dispatcher) : MessageLog := ⟨some dispatcher⟩

/-- A dispatcher by itself, as a log. -/
def ofDispatcher (dispatcher : Dispatcher) : MessageLog := new dispatcher

/-- Every event is dropped. -/
def disabled : MessageLog := new .silent

/-- Events go to whoever listens by default. -/
def current : MessageLog := ⟨none⟩

instance : Inhabited MessageLog := ⟨{}⟩

/-- Where the events of a call with a log go. -/
def destination (log : MessageLog) : Destination :=
  match log.dispatcher with
  | some .recipient => .own
  | some .silent => .nowhere
  | none => .ambient

/-- A call with a log: its result, and what each recipient got. -/
def scope {α : Type} (log : MessageLog) (call : Traced α) : α × Journal :=
  call.sendTo log.destination

end MessageLog

end AgentWire
