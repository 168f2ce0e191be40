import AgentWire.Command.Envelope
import AgentWire.Journal

/-!
# Resolution — a message as a command without open references

A command is read, its parameters are completed with the defaults of its document, and every
reference in its content is replaced by the value that it selects. A message that is refused
notes one warning, as its last event; one that is accepted notes none.
-/

namespace AgentWire.Command

/-- Reads a command and notes a message that is refused. -/
def decodeTraced (raw : ByteArray) : Traced (Except Fault Command) :=
  match decode raw with
  | .ok command => ⟨.ok command, []⟩
  | .error fault => ⟨.error fault, [.rejected fault raw.size]⟩

/-- The events of completing the parameters of a command. -/
def completionEvents (c : Command) : List Event :=
  let sent := c.parameters.size
  let completed := c.completedParameters.size
  if sent < completed then [.defaulted c.id (completed - sent)] else []

/-- The command with its parameters completed and its references resolved. -/
def resolve (c : Command) : Except Fault Command :=
  match c.content.substitute c.completedParameters with
  | .error fault => .error fault
  | .ok content => .ok { c with content := content, parameters := c.completedParameters }

/-- Reads a command and resolves it, with what is noted on the way. -/
def parseTraced (raw : ByteArray) : Traced (Except Fault Command) :=
  match decode raw with
  | .error fault => ⟨.error fault, [.rejected fault raw.size]⟩
  | .ok command =>
    let before :=
      .decoded command.id command.documentName command.parameters.size ::
        command.completionEvents
    match command.resolve with
    | .error fault => ⟨.error fault, before ++ [.unresolved command.id fault]⟩
    | .ok resolved => ⟨.ok resolved, before ++ [.resolved command.id]⟩

/-- Reads a command from the bytes of a message and resolves its references. -/
def parse (raw : ByteArray) : Except Fault Command :=
  (parseTraced raw).result

/-- Reads a command from the text of a message and resolves its references. -/
def parseText (message : String) : Except Fault Command :=
  parse message.toUTF8

end AgentWire.Command
