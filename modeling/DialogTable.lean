import DialogTable.Command.Memory
import DialogTable.Main
import DialogTable.Preview.Cache
import DialogTable.Settings.Printer
import DialogTable.Proofs.Repair.Errors
import DialogTable.Proofs.Repair.Cancellation
import DialogTable.Proofs.Repair.Transparency
import DialogTable.Proofs.Table.Reachable
import DialogTable.Proofs.Table.RoundTrip
import DialogTable.Proofs.Validation.Idempotence
import DialogTable.Proofs.Validation.WellFormed
import DialogTable.Proofs.Validation.References
import DialogTable.Proofs.Validation.Agreement
import DialogTable.Proofs.Text.Clean
import DialogTable.Proofs.Validation.Characters
import DialogTable.Proofs.Repair.Clean
import DialogTable.Proofs.Flow.Acceptance
import DialogTable.Proofs.Flow.Reachable
import DialogTable.Proofs.Flow.Scope
import DialogTable.Proofs.Repair.Preparation
import DialogTable.Proofs.Validation.Effects
import DialogTable.Proofs.Validation.Frame
import DialogTable.Proofs.Table.Changes
import DialogTable.Proofs.Table.Untouched
import DialogTable.Proofs.Script.Tracking
import DialogTable.Proofs.Script.Removal
import DialogTable.Proofs.RichContent.Choices
import DialogTable.Proofs.Compiler.Mention
import DialogTable.Proofs.Command.Conversation
import DialogTable.Proofs.Sample.Promise
import DialogTable.Proofs.Patch.Chat
import DialogTable.Proofs.Preview.Fingerprint
import DialogTable.Proofs.Compiler.Scan
import DialogTable.Proofs.Repair.Backoff
