import ToolDialogue.Session.Identifier
import ToolDialogue.Session.Operation
import ToolDialogue.File.Change
import ToolDialogue.File.Confinement
import ToolDialogue.Arithmetic.Double
import ToolDialogue.Arithmetic.Rendering
import ToolDialogue.Json.Print
import ToolDialogue.Json.Read
import ToolDialogue.Text.Alphanumeric
import ToolDialogue.Tool.Calculate
import ToolDialogue.Tool.CreateFile
import ToolDialogue.Tool.Profile
import ToolDialogue.Tool.Listing
import ToolDialogue.Dialogue.Turn
import ToolDialogue.Config.Environment
import ToolDialogue.Config.Record
import ToolDialogue.Http.Routes
import ToolDialogue.Mcp.Connection
import ToolDialogue.Failure
import ToolDialogue.Main
import ToolDialogue.Proofs.Dialogue.Merge
import ToolDialogue.Proofs.Server.Guard
import ToolDialogue.Proofs.File.Confined
import ToolDialogue.Proofs.Arithmetic.Evaluation
import ToolDialogue.Proofs.Arithmetic.Grammar
import ToolDialogue.Proofs.Dialogue.Lifecycle
import ToolDialogue.Proofs.Dialogue.Noninterference
import ToolDialogue.Proofs.Dialogue.Fallback
import ToolDialogue.Proofs.Arithmetic.LastOperator
import ToolDialogue.Proofs.Dialogue.Standing
import ToolDialogue.Proofs.Dialogue.Asking
import ToolDialogue.Proofs.Server.Entries
import ToolDialogue.Proofs.Server.Guidance
import ToolDialogue.Proofs.Server.Answers
import ToolDialogue.Proofs.Arithmetic.Closing
import ToolDialogue.Proofs.Arithmetic.Splicing
import ToolDialogue.Proofs.Session.Objects
import ToolDialogue.Proofs.Arithmetic.SignedCall
import ToolDialogue.Proofs.Arithmetic.Faults
import ToolDialogue.Proofs.Arithmetic.Neighbours
import ToolDialogue.Proofs.File.Resolved
import ToolDialogue.Proofs.File.Overwrite
import ToolDialogue.Proofs.File.LinkPolicy
import ToolDialogue.Proofs.Tool.Saving
import ToolDialogue.Proofs.Tool.Whole
import ToolDialogue.Proofs.Dialogue.Expiry
import ToolDialogue.Proofs.Session.Changes
import ToolDialogue.Arithmetic.Ratio
import ToolDialogue.Proofs.Decimal.Nearest
import ToolDialogue.Proofs.Decimal.Unpacking
import ToolDialogue.Proofs.Decimal.Scientific
import ToolDialogue.Proofs.Decimal.Shortest
import ToolDialogue.Proofs.Arithmetic.Rendered
import ToolDialogue.Proofs.Arithmetic.Fraction
import ToolDialogue.Proofs.Arithmetic.Words
import ToolDialogue.Proofs.Dialogue.Recovery
import ToolDialogue.Proofs.Session.History
import ToolDialogue.Proofs.Tool.Listed
import ToolDialogue.Proofs.Session.Cutoff
import ToolDialogue.Proofs.Server.Cutoff
import ToolDialogue.Proofs.Server.Counts
import ToolDialogue.Proofs.Arithmetic.Removal
import ToolDialogue.Proofs.Arithmetic.Activation
