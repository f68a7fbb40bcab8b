import Wasmline.AsmJs
import Wasmline.Command.Execute
import Wasmline.Command.Line
import Wasmline.Config
import Wasmline.Diagnostic.Basic
import Wasmline.Diagnostic.Finding
import Wasmline.Digest.Sha256
import Wasmline.Engine.Basic
import Wasmline.Engine.Scripted
import Wasmline.Engine.Standard
import Wasmline.Failure
import Wasmline.FileTree
import Wasmline.Main
import Wasmline.Note
import Wasmline.Output.Plan
import Wasmline.Program.Basic
import Wasmline.Program.Fingerprint
import Wasmline.Program.Folding
import Wasmline.Program.Lowering
import Wasmline.Program.Pass
import Wasmline.Program.Reachable
import Wasmline.Run.Basic
import Wasmline.Run.Discovery
import Wasmline.Run.Drain
import Wasmline.Run.Stages
import Wasmline.Run.Work
import Wasmline.Source.Declaration
import Wasmline.Source.File
import Wasmline.Source.Line
import Wasmline.Source.Path
import Wasmline.Source.Session
import Wasmline.Text.Blank
import Wasmline.Text.Escaped
import Wasmline.Text.Lines
import Wasmline.Text.Painted
import Wasmline.Text.Utf8
import Wasmline.Text.Visible
import Wasmline.Text.Word
import Wasmline.Wasm.Binary
import Wasmline.Wasm.Check
import Wasmline.Wasm.Leb128
import Wasmline.Wasm.Text
import Wasmline.Proofs.Program.CallChain
import Wasmline.Proofs.Program.Reachable
import Wasmline.Proofs.Program.Folding
import Wasmline.Proofs.Program.Lowering
import Wasmline.Proofs.Run.Discovery
import Wasmline.Proofs.Run.Drain
import Wasmline.Proofs.Run.Finish
import Wasmline.Proofs.Run.Lifecycle
import Wasmline.Proofs.Run.Writing
import Wasmline.Proofs.Source.Worklist
import Wasmline.Proofs.Run.Exactness
import Wasmline.Proofs.Wasm.Decoding
import Wasmline.Proofs.Program.Algebra
import Wasmline.Proofs.Program.WellFormed
import Wasmline.Proofs.Run.Validity
import Wasmline.Proofs.Source.Grammar
import Wasmline.Proofs.Source.Recognition
import Wasmline.Proofs.Program.Relocation
import Wasmline.Proofs.Source.Respelling
import Wasmline.Proofs.Run.Agreement
import Wasmline.Proofs.Run.Respelling
import Wasmline.Proofs.Source.Location
import Wasmline.Proofs.Run.Lookup
import Wasmline.Proofs.Program.Reports
import Wasmline.Proofs.Program.Retention
import Wasmline.Proofs.Program.Marking
import Wasmline.Proofs.Program.ImportOrder
import Wasmline.Proofs.Run.Reporting
import Wasmline.Proofs.Source.Accounting
import Wasmline.Proofs.Diagnostic.Caret
import Wasmline.Proofs.Diagnostic.Colour
import Wasmline.Proofs.AsmJs
import Wasmline.Proofs.Run.Naming
import Wasmline.Proofs.Program.Fingerprint
import Wasmline.Proofs.Source.Literals
import Wasmline.Proofs.Source.Pattern
import Wasmline.Proofs.Output.Plan
import Wasmline.Proofs.Command.RoundTrip
