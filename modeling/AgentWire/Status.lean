import AgentWire.Json.Kind
import AgentWire.Json.Record

/-!
# Statuses — how far a plugin, or a whole document, has come

Nine statuses with the texts of the wire; the status that nobody has reported yet is the empty
text.
-/

namespace AgentWire

/-- The status of a plugin or of a whole document. -/
inductive Status where
  /-- No status has been reported. -/
  | unset
  | success
  | failed
  | inProgress
  | pending
  | cancelled
  | timedOut
  /-- Finished without error, and wants the machine to start anew. -/
  | successAndReboot
  /-- Never began, as a rule because something before it failed. -/
  | notStarted
deriving DecidableEq, Repr, Inhabited

namespace Status

/-- Every status, in the order in which they are listed. -/
def all : List Status :=
  [unset, success, failed, inProgress, pending, cancelled, timedOut, successAndReboot,
    notStarted]

/-- The text of a status on the wire. -/
def text : Status → String
  | unset => ""
  | success => "Success"
  | failed => "Failed"
  | inProgress => "InProgress"
  | pending => "Pending"
  | cancelled => "Cancelled"
  | timedOut => "TimedOut"
  | successAndReboot => "SuccessAndReboot"
  | notStarted => "NotStarted"

/-- The status that a text names. -/
def ofText? (text : String) : Option Status :=
  all.find? (·.text = text)

theorem mem_all (s : Status) : s ∈ all := by
  cases s <;> decide

theorem ofText?_text (s : Status) : ofText? s.text = some s := by
  cases s <;> decide

theorem text_injective {s t : Status} (h : s.text = t.text) : s = t := by
  have := ofText?_text s
  rw [h, ofText?_text t] at this
  exact (Option.some.inj this).symm

/-- A status as a value. -/
def toJson (s : Status) : Json :=
  .string s.text

/-- Reads a status from a text. -/
def decoder : Json.Decoder Status :=
  Json.Decoder.choice (all.map text) ofText?

/-- The status that a text names, or why it names none. -/
def ofName (name : String) : Except Json.Fault Status :=
  match ofText? name with
  | some s => .ok s
  | none => .error (.unknownVariant name (all.map text))

/-- The status that a value names: a string does, and an object whose only member has that name
    and holds nothing. -/
def ofJson : Json → Except Json.Fault Status
  | .string name => ofName name
  | .object [(name, content)] =>
    match ofName name with
    | .error fault => .error fault
    | .ok s => if content = .null then .ok s else .error (.wrongKind content.found .unit)
  | .object _ => .error .notOneMember
  | other => .error (.wrongKind other.found .variant)

end Status

end AgentWire
