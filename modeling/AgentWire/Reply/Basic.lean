import AgentWire.Agent.Identity
import AgentWire.Plugin.RuntimeStatus

/-!
# Replies — what an agent reports back

A reply says who sends it and when, how many plugins stand at each status, the status of the
whole document, and the runtime status of every plugin. Every field may be left out when it is
read; all of them are written.
-/

namespace AgentWire

/-- The part of a reply that is not about single plugins. -/
structure ReplyInfo where
  agent : Agent := {}
  /-- The time of the reply as a text, which need not be that of a timestamp. -/
  dateTime : String := ""
  /-- The number of plugins by the text of their status. -/
  counts : NameMap UInt32 := .empty
deriving DecidableEq

/-- A report on one run of a document. -/
structure Reply where
  info : ReplyInfo := {}
  documentStatus : Status := .unset
  statuses : NameMap RuntimeStatus := .empty
deriving DecidableEq

/-- Counts as a value. -/
def countsToJson (counts : NameMap UInt32) : Json :=
  counts.toJson fun n => .number (.ofUInt32 n)

/-- Runtime statuses as a value. -/
def statusesToJson (statuses : NameMap RuntimeStatus) : Json :=
  statuses.toJson RuntimeStatus.toJson

namespace ReplyInfo

/-- The general part of a reply as a value. -/
def toJson (i : ReplyInfo) : Json :=
  .object
    [("agent", i.agent.toJson), ("dateTime", .string i.dateTime),
      ("runtimeStatusCounts", countsToJson i.counts)]

/-- Reads the general part of a reply. -/
def decoder : Json.Decoder ReplyInfo :=
  (Json.Record.ofDefaults "AdditionalInfo" {}
    [.of "agent" Agent.decoder (fun i x => { i with agent := x }),
      .of "dateTime" .text (fun i x => { i with dateTime := x }),
      .of "runtimeStatusCounts" (.dictionary .unsigned32)
        (fun i x => { i with counts := x })]).decoder

end ReplyInfo

namespace Reply

instance : Inhabited Reply := ⟨{}⟩

/-- A reply as a value. -/
def toJson (r : Reply) : Json :=
  .object
    [("additionalInfo", r.info.toJson), ("documentStatus", r.documentStatus.toJson),
      ("runtimeStatus", statusesToJson r.statuses)]

/-- The wire form of a reply. -/
def encode (r : Reply) : String :=
  r.toJson.compact

/-- Reads a reply. -/
def decoder : Json.Decoder Reply :=
  (Json.Record.ofDefaults "ReplyPayload" {}
    [.of "additionalInfo" ReplyInfo.decoder (fun r x => { r with info := x }),
      .of "documentStatus" Status.decoder (fun r x => { r with documentStatus := x }),
      .of "runtimeStatus" (.dictionary RuntimeStatus.decoder)
        (fun r x => { r with statuses := x })]).decoder

/-- The reply in the bytes of a message. -/
def parse (raw : ByteArray) : Except Fault Reply :=
  (Json.decode decoder (Symbol.ofBytes raw)).mapError fun fault => .malformed (.badReply fault)

end Reply

end AgentWire
