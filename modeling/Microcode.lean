import Microcode.Assembly
import Microcode.Assoc
import Microcode.Branch
import Microcode.Builder
import Microcode.Capacity
import Microcode.Command
import Microcode.Console
import Microcode.Error
import Microcode.FileSystem
import Microcode.Header
import Microcode.Layout
import Microcode.Layout.Reader
import Microcode.Line
import Microcode.Listing
import Microcode.Main
import Microcode.Markup
import Microcode.Notice
import Microcode.Numeral.Decimal
import Microcode.Numeral.Reader
import Microcode.Options
import Microcode.Proofs.Assoc
import Microcode.Proofs.Checks
import Microcode.Proofs.Evolution
import Microcode.Proofs.History
import Microcode.Proofs.Layout
import Microcode.Proofs.Lists
import Microcode.Proofs.Parallel
import Microcode.Proofs.Resolution
import Microcode.Report
import Microcode.Rom
import Microcode.Session
import Microcode.Stream
import Microcode.Symbols
import Microcode.Tables
import Microcode.Text.Basic
import Microcode.Text.Blank
import Microcode.Text.Digit
import Microcode.Text.Printable
import Microcode.Text.Quoted
import Microcode.Text.Utf8
import Microcode.Token
import Microcode.Value
import Microcode.Word
import Microcode.Proofs.Consistency
import Microcode.Proofs.Packing
import Microcode.Proofs.Finalize
import Microcode.Proofs.BranchTargets
import Microcode.Proofs.StreamGrammar
import Microcode.Proofs.DeclarationOrder
import Microcode.Proofs.StreamAssembly
import Microcode.Proofs.Relocation
import Microcode.Proofs.WordOrder
import Microcode.Proofs.Ascii
import Microcode.Proofs.FailedRun
import Microcode.Proofs.FrontEnds
import Microcode.Proofs.Retry
import Microcode.Proofs.Closed
import Microcode.Proofs.Outputs
import Microcode.Proofs.Positions
import Microcode.Proofs.Tracing
import Microcode.Proofs.InterruptedRun
import Microcode.Proofs.Rejections
import Microcode.Proofs.LayoutValidity
import Microcode.Proofs.Placement
import Microcode.Proofs.HeaderNames
import Microcode.Proofs.Sources
import Microcode.Proofs.RunLog
import Microcode.Proofs.SuccessfulRun
import Microcode.Proofs.BranchRewriting
import Microcode.Proofs.RejectedCalls
import Microcode.Proofs.Digits
import Microcode.Proofs.NumberGrammar
import Microcode.Proofs.Renderings
import Microcode.Proofs.SharedBuffer
import Microcode.Proofs.SymbolHistory
import Microcode.Proofs.ImageReading
import Microcode.Proofs.Filling
import Microcode.Proofs.Depth
import Microcode.Proofs.BitRuns
import Microcode.Proofs.Ownership
import Microcode.Proofs.SevenBit
import Microcode.Proofs.Comments
import Microcode.Proofs.Annotations
