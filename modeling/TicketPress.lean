import TicketPress.Main
import TicketPress.Proofs.CommandLine.Canonical
import TicketPress.Proofs.Layout.NormalForm
import TicketPress.Proofs.Layout.Sources
import TicketPress.Proofs.Layout.LineBreak
import TicketPress.Proofs.Script.Opening
import TicketPress.Proofs.Script.Run
import TicketPress.Proofs.Script.Inverse
import TicketPress.Proofs.Script.Accounts
import TicketPress.Proofs.CommandLine.Import
import TicketPress.Proofs.Script.Isolation
import TicketPress.Proofs.Script.Editing
import TicketPress.Proofs.Script.Grammar
import TicketPress.Proofs.Script.Tiling
import TicketPress.Proofs.Layout.Ownership
import TicketPress.Proofs.Layout.Replay
import TicketPress.Proofs.Script.Meaning
import TicketPress.Proofs.Layout.Truncation
import TicketPress.Proofs.Text.Counting
import TicketPress.Proofs.Placeholder.Parts
import TicketPress.Proofs.Placeholder.Names
import TicketPress.Proofs.Placeholder.Filling
import TicketPress.Proofs.Instruction.Marking
import TicketPress.Proofs.CommandLine.Preview
import TicketPress.Proofs.Script.Shapes
import TicketPress.Proofs.Project.ExportName
import TicketPress.Proofs.CommandLine.Difference
import TicketPress.Proofs.Diagnostic.Document
import TicketPress.Proofs.Decimal.Spelling
import TicketPress.Proofs.Instruction.LineFeeds
import TicketPress.Proofs.Script.Word
import TicketPress.Proofs.Layout.Rewriting
import TicketPress.Proofs.Script.Movement
import TicketPress.Proofs.Layout.Movement
