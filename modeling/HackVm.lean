import HackVm.AccessFault
import HackVm.Assembly.Basic
import HackVm.Assembly.Block
import HackVm.Command.Basic
import HackVm.Command.Line
import HackVm.Command.Words
import HackVm.CommandLine.Options
import HackVm.CommandLine.Reader
import HackVm.CommandLine.Run
import HackVm.CommandLine.Standard
import HackVm.Compilation
import HackVm.Disk
import HackVm.Emitter
import HackVm.Failure
import HackVm.FileTree.Access
import HackVm.FileTree.Basic
import HackVm.Log
import HackVm.Main
import HackVm.Path
import HackVm.Source.Basic
import HackVm.Source.Compile
import HackVm.Source.Error
import HackVm.Source.Reader
import HackVm.Text.Blank
import HackVm.Text.Cased
import HackVm.Text.Lowercase
import HackVm.Text.Range
import HackVm.Text.Utf8
import HackVm.Writer
import HackVm.Proofs.Arguments
import HackVm.Proofs.Comments
import HackVm.Proofs.Comparison
import HackVm.Proofs.Compilation
import HackVm.Proofs.Concatenation
import HackVm.Proofs.Decompiling
import HackVm.Proofs.Emission
import HackVm.Proofs.Execution
import HackVm.Proofs.FileTree.Walk
import HackVm.Proofs.FileTree.Writing
import HackVm.Proofs.Grammar
import HackVm.Proofs.Journal
import HackVm.Proofs.Labels
import HackVm.Proofs.Layout
import HackVm.Proofs.LineCount
import HackVm.Proofs.LineFaults
import HackVm.Proofs.Machine.Assembler
import HackVm.Proofs.Machine.Basic
import HackVm.Proofs.Machine.Listing
import HackVm.Proofs.Machine.Reading
import HackVm.Proofs.OnePass
import HackVm.Proofs.Path
import HackVm.Proofs.Reader
import HackVm.Proofs.Refusal
import HackVm.Proofs.Remarks
import HackVm.Proofs.Renumbering
import HackVm.Proofs.Session
import HackVm.Proofs.Source.Advance
import HackVm.Proofs.Source.Calls
import HackVm.Proofs.Source.Items
import HackVm.Proofs.Source.LineEnding
import HackVm.Proofs.SourceFailures
import HackVm.Proofs.Spelling
import HackVm.Proofs.StackMachine
import HackVm.Proofs.StoredOutput
import HackVm.Proofs.SymbolClasses
import HackVm.Proofs.Symbols
import HackVm.Proofs.Text.Folding
import HackVm.Proofs.Text.Lowering
import HackVm.Proofs.TextLines
import HackVm.Proofs.Trace
import HackVm.Proofs.Translation
import HackVm.Proofs.Verbosity
