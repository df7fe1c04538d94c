import SourceGen.Cancellation
import SourceGen.Diagnostic.Render
import SourceGen.Dispatch.Board
import SourceGen.Generator.Script
import SourceGen.Host.Machine
import SourceGen.Host.Scripted
import SourceGen.Proofs.Assembly.Modules
import SourceGen.Proofs.Dispatch.Board
import SourceGen.Proofs.Dispatch.Calls
import SourceGen.Proofs.Dispatch.Isolation
import SourceGen.Proofs.Dispatch.Schedule
import SourceGen.Proofs.GlobalImports
import SourceGen.Proofs.Pipeline.Abandon
import SourceGen.Proofs.Pipeline.Edits
import SourceGen.Proofs.Pipeline.Epochs
import SourceGen.Proofs.Pipeline.Fragments
import SourceGen.Proofs.Pipeline.Incremental
import SourceGen.Proofs.Pipeline.Losses
import SourceGen.Proofs.Pipeline.Reformat
import SourceGen.Proofs.Pipeline.Repeat
import SourceGen.Proofs.Pipeline.Requests
import SourceGen.Proofs.Assembly.Surroundings
import SourceGen.Proofs.View.Fragments
import SourceGen.Proofs.GlobalImports.Clashes
import SourceGen.Proofs.Program.Addresses
import SourceGen.Proofs.Resolution.Chains
import SourceGen.Proofs.Assembly.Offers
import SourceGen.Proofs.Resolution.Groups
import SourceGen.Proofs.Resolution.Crates
import SourceGen.Proofs.View.Types
import SourceGen.Proofs.View.Collector
import SourceGen.Proofs.View.Attributes
import SourceGen.Proofs.GlobalImports.Canonical
import SourceGen.Proofs.Assembly.Order
import SourceGen.Proofs.Build.CargoMessage
import SourceGen.Proofs.Build.Manifest
import SourceGen.Proofs.Program.Files
import SourceGen.Proofs.Text.Template
import SourceGen.Proofs.Memo.Keys
import SourceGen.Proofs.Program.References
import SourceGen.Proofs.Program.Crate
import SourceGen.Proofs.Program.Decoding
import SourceGen.Proofs.Diagnostic.Caret
