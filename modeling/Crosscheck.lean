import Crosscheck.Text.Blank
import Crosscheck.Text.Lines
import Crosscheck.Text.Replace
import Crosscheck.Text.Utf8
import Crosscheck.Text.WordChar
import Crosscheck.Text.CaseFold
import Crosscheck.Text.Quoted
import Crosscheck.Number.Decimal
import Crosscheck.Json.Reader
import Crosscheck.Json.Writer
import Crosscheck.Value.Display
import Crosscheck.Failure
import Crosscheck.Snippet.Locate
import Crosscheck.Pattern.Template
import Crosscheck.Pattern.Reader
import Crosscheck.Conditional.Resolver
import Crosscheck.Patch.Patcher
import Crosscheck.Artifact
import Crosscheck.Config.Reader
import Crosscheck.Machine.Disk
import Crosscheck.Machine.Shell.Reader
import Crosscheck.Machine.Tools
import Crosscheck.Machine.Shell.Run
import Crosscheck.Translator.Rehearsed
import Crosscheck.Translator.Program
import Crosscheck.Translator.Invoker
import Crosscheck.Engine.Cache
import Crosscheck.Checker.Inline
import Crosscheck.Checker.Display
import Crosscheck.Project.Run
import Crosscheck.CommandLine.Run
import Crosscheck.Machine.Standard
import Crosscheck.Main
import Crosscheck.Proofs.Pattern.Forms
import Crosscheck.Proofs.Pattern.Rewriting
import Crosscheck.Proofs.Conditional.Document
import Crosscheck.Proofs.Conditional.Resolution
import Crosscheck.Proofs.Conditional.Settlement
import Crosscheck.Proofs.Conditional.NormalForm
import Crosscheck.Proofs.Conditional.Steps
import Crosscheck.Proofs.Conditional.FirstLine
import Crosscheck.Proofs.Conditional.Enclosure
import Crosscheck.Proofs.Checker.FailClosed
import Crosscheck.Proofs.Json.Structure
import Crosscheck.Proofs.Value.Canonical
import Crosscheck.Proofs.Value.Comparison
import Crosscheck.Proofs.Patch.Weight
import Crosscheck.Proofs.Patch.Passes
import Crosscheck.Proofs.Patch.Idempotence
import Crosscheck.Proofs.Text.Occurrence
import Crosscheck.Proofs.Patch.Modes
import Crosscheck.Proofs.Patch.Outcome
import Crosscheck.Proofs.Text.Lines
import Crosscheck.Proofs.Snippet.Location
import Crosscheck.Proofs.Conditional.LastLine
import Crosscheck.Proofs.Conditional.Padding
import Crosscheck.Proofs.Conditional.NumberSigns
import Crosscheck.Proofs.Checker.Persistence
import Crosscheck.Proofs.Json.WellFormed
import Crosscheck.Proofs.Json.RoundTrip
import Crosscheck.Proofs.Value.Structure
import Crosscheck.Proofs.Value.RoundTrip
import Crosscheck.Proofs.Number.Rounding
import Crosscheck.Proofs.Number.Printing
import Crosscheck.Proofs.Text.Quoted
import Crosscheck.Proofs.Value.Display
import Crosscheck.Proofs.Engine.Sum
import Crosscheck.Proofs.Checker.Mismatch
import Crosscheck.Proofs.Json.Spelling
import Crosscheck.Proofs.Config.Overlay
import Crosscheck.Proofs.Checker.SharedEngine
import Crosscheck.Proofs.Checker.HandedOver
import Crosscheck.Proofs.Machine.Disk
import Crosscheck.Proofs.Machine.Walk
import Crosscheck.Proofs.Machine.Footprint
import Crosscheck.Proofs.Machine.Parent
import Crosscheck.Proofs.Project.Translation
import Crosscheck.Proofs.Project.Rehearsed
import Crosscheck.Proofs.Project.WholeRun
import Crosscheck.Proofs.Project.Success
import Crosscheck.Proofs.Project.TestFile
import Crosscheck.Proofs.Project.Overlooked
import Crosscheck.Proofs.Project.Unhindered
import Crosscheck.Proofs.Project.Unfollowed
import Crosscheck.Proofs.Text.Trimming
import Crosscheck.Proofs.Snippet.Preamble
import Crosscheck.Proofs.Snippet.Sentinels
import Crosscheck.Proofs.Text.Utf8
import Crosscheck.Proofs.Translator.Verdict
import Crosscheck.Proofs.Translator.Narrowing
import Crosscheck.Proofs.Patch.Removal
import Crosscheck.Proofs.Artifact.TestMarks
import Crosscheck.Proofs.Artifact.Instrumentation
import Crosscheck.Proofs.Text.Bytewise
import Crosscheck.Proofs.Conditional.Simultaneous
import Crosscheck.Proofs.Engine.LastExpression
import Crosscheck.Proofs.Text.Breaks
import Crosscheck.Proofs.Checker.Tail
