import AgentWire.Reply.Basic

/-!
# Assembly — a reply from the runtime statuses of the plugins

The status of a document is the most pressing one among its plugins, in the order of
`precedence`; a document whose plugins are all unset or not started has not started, and one
without plugins is a success. The counts say how many plugins stand at each status, up to the
largest number that they can hold.
-/

namespace AgentWire

/-- Statuses that settle the status of a document, the most pressing first. -/
def precedence : List Status :=
  [.inProgress, .pending, .failed, .timedOut, .cancelled, .successAndReboot, .success]

/-- The status of a document whose plugins have these runtime statuses. -/
def aggregate (statuses : NameMap RuntimeStatus) : Status :=
  if statuses.isEmpty then .success
  else
    (precedence.find? fun s => statuses.values.any (·.status = s)).getD .notStarted

/-- One more, up to the largest number there is. -/
def countUp (n : UInt32) : UInt32 :=
  if n = 4294967295 then n else n + 1

/-- Counts one more plugin at a status. -/
def tally (counts : NameMap UInt32) (status : Status) : NameMap UInt32 :=
  counts.insert status.text (countUp ((counts.get? status.text).getD 0))

/-- The number of plugins at each status, by the text of the status. -/
def countStatuses (statuses : NameMap RuntimeStatus) : NameMap UInt32 :=
  (statuses.values.map (·.status)).foldl tally NameMap.empty

/-- The reply on a run of a document at a time. The version that the caller states is not
    written anywhere; the agent's own is. -/
def Reply.assemble (_agentVersion : String) (statuses : NameMap RuntimeStatus)
    (time : Timestamp) (agent : Agent) : Reply where
  info := { agent := agent, dateTime := time.text, counts := countStatuses statuses }
  documentStatus := aggregate statuses
  statuses := statuses

end AgentWire
