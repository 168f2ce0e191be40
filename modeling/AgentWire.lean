import AgentWire.Command.Draft
import AgentWire.Main
import AgentWire.Proofs.Json.Shape
import AgentWire.Proofs.Reference.Token
import AgentWire.Proofs.Substitution.Outcome
import AgentWire.Proofs.Parameters.Completion
import AgentWire.Proofs.Binary64.Decimal
import AgentWire.Proofs.Json.Numeral
import AgentWire.Proofs.Command.Encoding
import AgentWire.Proofs.Command.Reception
import AgentWire.Proofs.Command.Acceptance
import AgentWire.Proofs.Command.Resolution
import AgentWire.Proofs.Command.RoundTrip
import AgentWire.Proofs.Command.Stability
import AgentWire.Proofs.Calendar
import AgentWire.Proofs.Timestamp.Form
import AgentWire.Proofs.Timestamp.RoundTrip
import AgentWire.Proofs.Reply.RoundTrip
import AgentWire.Proofs.Reply.Reporting
import AgentWire.Proofs.CommandLine.References
import AgentWire.Proofs.CommandLine.Reply
import AgentWire.Proofs.CommandLine.Printing
import AgentWire.Proofs.Json.Consumption
import AgentWire.Proofs.Json.Following
import AgentWire.Proofs.Json.Direct
import AgentWire.Proofs.Command.Agreement
import AgentWire.Proofs.Command.Defaults
import AgentWire.Proofs.Reply.Counting
import AgentWire.Proofs.Reply.Isolation
import AgentWire.Proofs.Reply.Regeneration
import AgentWire.Proofs.Reply.Consistency
import AgentWire.Proofs.NameMap.Union
import AgentWire.Proofs.Reference.Occurrence
import AgentWire.Proofs.Reference.Position
import AgentWire.Proofs.Reference.Selection
import AgentWire.Proofs.Substitution.Cut
import AgentWire.Proofs.Substitution.Splicing
import AgentWire.Proofs.Substitution.Leafwise
import AgentWire.Proofs.Substitution.Extension
import AgentWire.Proofs.CommandLine.Listing
import AgentWire.Proofs.Substitution.Remainder
import AgentWire.Proofs.Timestamp.Range
import AgentWire.Proofs.Text.Bytes
import AgentWire.Proofs.Timestamp.Order
import AgentWire.Proofs.Json.Choice
import AgentWire.Proofs.Json.Outline
import AgentWire.Proofs.Json.Cells
import AgentWire.Proofs.Plugin.Record
import AgentWire.Proofs.Plugin.Translation
import AgentWire.Proofs.Reply.Precedence
import AgentWire.Proofs.Reply.Totals
import AgentWire.Proofs.Parameters.Priority
import AgentWire.Proofs.Parameters.Exchange
import AgentWire.Proofs.Command.Faults
import AgentWire.Proofs.Command.Refusal
import AgentWire.Proofs.Parameters.History
import AgentWire.Proofs.Journal
import AgentWire.Proofs.Command.Drafting
