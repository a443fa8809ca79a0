import LabelAutomaton.Binary
import LabelAutomaton.Builder
import LabelAutomaton.Calendar.Date
import LabelAutomaton.Calendar.Instant
import LabelAutomaton.Calendar.Instant.Text
import LabelAutomaton.Callback
import LabelAutomaton.Checkpoint
import LabelAutomaton.Checkpoint.Binary
import LabelAutomaton.Checkpoint.Json
import LabelAutomaton.Config
import LabelAutomaton.Description
import LabelAutomaton.Description.Dot
import LabelAutomaton.Description.Json
import LabelAutomaton.Event
import LabelAutomaton.Graph
import LabelAutomaton.History
import LabelAutomaton.History.Json
import LabelAutomaton.Json.Document
import LabelAutomaton.Json.Literal
import LabelAutomaton.Json.Numeral
import LabelAutomaton.Json.Reader
import LabelAutomaton.Json.Token
import LabelAutomaton.Json.Value
import LabelAutomaton.Machine
import LabelAutomaton.Main
import LabelAutomaton.NameSet
import LabelAutomaton.Proofs.Binary.Delimited
import LabelAutomaton.Proofs.Builder.Declared
import LabelAutomaton.Proofs.Builder.Described
import LabelAutomaton.Proofs.Builder.Rearranged
import LabelAutomaton.Proofs.Builder.Registered
import LabelAutomaton.Proofs.Builder.Replaced
import LabelAutomaton.Proofs.Builder.Taken
import LabelAutomaton.Proofs.Calendar.Clock
import LabelAutomaton.Proofs.Calendar.Timestamp
import LabelAutomaton.Proofs.Callback.Entry
import LabelAutomaton.Proofs.Checkpoint.Binary
import LabelAutomaton.Proofs.Checkpoint.Continuation
import LabelAutomaton.Proofs.Checkpoint.Finished
import LabelAutomaton.Proofs.Checkpoint.Grammar
import LabelAutomaton.Proofs.Checkpoint.Lineage
import LabelAutomaton.Proofs.Checkpoint.Parking
import LabelAutomaton.Proofs.Checkpoint.Resume
import LabelAutomaton.Proofs.Checkpoint.Survival
import LabelAutomaton.Proofs.Checkpoint.Truncated
import LabelAutomaton.Proofs.Config.Grammar
import LabelAutomaton.Proofs.Description.Dot
import LabelAutomaton.Proofs.Description.Grammar
import LabelAutomaton.Proofs.Description.Rearranged
import LabelAutomaton.Proofs.History.Elapsed
import LabelAutomaton.Proofs.History.Grammar
import LabelAutomaton.Proofs.History.Kept
import LabelAutomaton.Proofs.History.Trail
import LabelAutomaton.Proofs.Json.Document
import LabelAutomaton.Proofs.Json.Literal
import LabelAutomaton.Proofs.Json.Members
import LabelAutomaton.Proofs.Json.Reader
import LabelAutomaton.Proofs.Json.Token
import LabelAutomaton.Proofs.Machine.Call
import LabelAutomaton.Proofs.Machine.Fleet
import LabelAutomaton.Proofs.Machine.Independence
import LabelAutomaton.Proofs.Machine.Lockstep
import LabelAutomaton.Proofs.Machine.Log
import LabelAutomaton.Proofs.Machine.Recorded
import LabelAutomaton.Proofs.Machine.Reference
import LabelAutomaton.Proofs.Machine.Refusal
import LabelAutomaton.Proofs.Machine.Trace
import LabelAutomaton.Proofs.StatementGrammar.Endings
import LabelAutomaton.Proofs.StatementGrammar.Nodes
import LabelAutomaton.Proofs.StatementGrammar.Twins
import LabelAutomaton.ReadError
import LabelAutomaton.Session
import LabelAutomaton.Session.Command
import LabelAutomaton.Session.Reply
import LabelAutomaton.SortedMap
import LabelAutomaton.StatementGrammar
import LabelAutomaton.Text.Extending
import LabelAutomaton.Text.Quoted
import LabelAutomaton.Text.Unassigned
