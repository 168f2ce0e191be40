import AgentWire.CommandLine.Run
import Std.Time.DateTime.Timestamp

/-!
# The program `agent-message`

Connects the runs of the command line to files, to the input and to the clock.
-/

namespace AgentWire.CommandLine

/-- The reason of a failure to read, with the number that the system gives it. -/
def failureText (e : IO.Error) : String :=
  let coded (details : String) (code : UInt32) : String :=
    details ++ " (os error " ++ toString code ++ ")"
  match e with
  | .noFileOrDirectory _ code details => coded details code
  | .permissionDenied _ code details => coded details code
  | .inappropriateType _ code details => coded details code
  | .invalidArgument _ code details => coded details code
  | .resourceExhausted _ code details => coded details code
  | .noSuchThing _ code details => coded details code
  | .hardwareFault code details => coded details code
  | other => toString other

/-- Reads what is left of a stream. -/
partial def readRest (stream : IO.FS.Stream) (before : ByteArray) : IO ByteArray := do
  let next ← stream.read 65536
  if next.isEmpty then return before else readRest stream (before ++ next)

/-- The result of an action, or the reason why it failed. -/
def attempt {α : Type} (action : IO α) : IO (Except String α) := do
  match ← action.toBaseIO with
  | .ok result => return .ok result
  | .error e => return .error (failureText e)

/-- The present, which is in the years that a timestamp can hold. -/
def present : IO Timestamp := do
  let time ← Std.Time.Timestamp.now
  match Timestamp.ofMillis time.toMillisecondsSinceUnixEpoch.val with
  | .ok time => return time
  | .error _ => return .zero

/-- The machine that the program runs on. -/
def machine : Host IO where
  file path := attempt (IO.FS.readBinFile path)
  input := do attempt (readRest (← IO.getStdin) .empty)
  now := present

end AgentWire.CommandLine

/-- Runs the program. -/
def main (args : List String) : IO UInt32 := do
  let exit ← AgentWire.CommandLine.run AgentWire.CommandLine.machine args
  IO.print exit.output
  (← IO.getStdout).flush
  for notice in exit.notices do
    IO.eprintln notice
  return exit.code.toUInt32
