import SourceAudit.Codec.Finding
import SourceAudit.Codec.Report
import SourceAudit.Command.Arguments
import SourceAudit.Command.Basic
import SourceAudit.Command.Execute
import SourceAudit.Command.Runs
import SourceAudit.Decimal.Binary
import SourceAudit.Decimal.Fixed
import SourceAudit.Decimal.Reading
import SourceAudit.Decimal.Shortest
import SourceAudit.Deep.Analyze
import SourceAudit.Deep.Design
import SourceAudit.Deep.Finding
import SourceAudit.Deep.Hazard
import SourceAudit.Deep.Semantics
import SourceAudit.Engine
import SourceAudit.Fault
import SourceAudit.Files.Loading
import SourceAudit.Files.Path
import SourceAudit.Files.Tree
import SourceAudit.Fix.Apply
import SourceAudit.Fix.Console
import SourceAudit.Fix.Imports
import SourceAudit.Fix.Kind
import SourceAudit.Fix.Lines
import SourceAudit.Fix.Markup
import SourceAudit.Fix.Script
import SourceAudit.Imports.Analyze
import SourceAudit.Imports.Cycle
import SourceAudit.Imports.Resolve
import SourceAudit.Imports.Statement
import SourceAudit.Improve.Basic
import SourceAudit.Improve.Comparison
import SourceAudit.Issue
import SourceAudit.Json.Basic
import SourceAudit.Json.Codec
import SourceAudit.Json.Parser
import SourceAudit.Json.Printer
import SourceAudit.Main
import SourceAudit.Markup.Finding
import SourceAudit.Markup.Tag
import SourceAudit.Markup.Validate
import SourceAudit.Pattern.Agreement
import SourceAudit.Pattern.Basic
import SourceAudit.Pattern.Build
import SourceAudit.Pattern.Plan
import SourceAudit.Pattern.Search
import SourceAudit.Proofs.Command.Completion
import SourceAudit.Proofs.Console.Calls
import SourceAudit.Proofs.Console.Parentheses
import SourceAudit.Proofs.Console.Removal
import SourceAudit.Proofs.Console.Settling
import SourceAudit.Proofs.Debugging.Functions
import SourceAudit.Proofs.Debugging.Markup
import SourceAudit.Proofs.Debugging.Score
import SourceAudit.Proofs.Debugging.Statement
import SourceAudit.Proofs.Deep.LoopBody
import SourceAudit.Proofs.Files.Loading
import SourceAudit.Proofs.Files.PathOrder
import SourceAudit.Proofs.Imports.Cycles
import SourceAudit.Proofs.Imports.Line
import SourceAudit.Proofs.Imports.Matches
import SourceAudit.Proofs.Imports.Readers
import SourceAudit.Proofs.Imports.Relative
import SourceAudit.Proofs.Imports.Rotations
import SourceAudit.Proofs.Imports.Unused
import SourceAudit.Proofs.Imports.Walk
import SourceAudit.Proofs.Improve.Account
import SourceAudit.Proofs.Improve.ClassNames
import SourceAudit.Proofs.Improve.Comparison
import SourceAudit.Proofs.Improve.Constants
import SourceAudit.Proofs.Improve.Declarations
import SourceAudit.Proofs.Improve.Doctype
import SourceAudit.Proofs.Improve.Frame
import SourceAudit.Proofs.Improve.Indentation
import SourceAudit.Proofs.Improve.Keys
import SourceAudit.Proofs.Improve.LineEdits
import SourceAudit.Proofs.Improve.Logging
import SourceAudit.Proofs.Improve.Numbers
import SourceAudit.Proofs.Improve.Recognition
import SourceAudit.Proofs.Improve.Renewal
import SourceAudit.Proofs.Improve.Requests
import SourceAudit.Proofs.Improve.Settled
import SourceAudit.Proofs.Improve.Spoiling
import SourceAudit.Proofs.Improve.Steady
import SourceAudit.Proofs.Improve.Styles
import SourceAudit.Proofs.Improve.Trimming
import SourceAudit.Proofs.Improve.Unsettled
import SourceAudit.Proofs.Json.RoundTrip
import SourceAudit.Proofs.Markup.Attributes
import SourceAudit.Proofs.Markup.Balance
import SourceAudit.Proofs.Markup.Deprecated
import SourceAudit.Proofs.Markup.Elements
import SourceAudit.Proofs.Markup.Images
import SourceAudit.Proofs.Markup.Kinds
import SourceAudit.Proofs.Markup.Labels
import SourceAudit.Proofs.Markup.LineEnds
import SourceAudit.Proofs.Markup.Mending
import SourceAudit.Proofs.Markup.Modernised
import SourceAudit.Proofs.Markup.Nesting
import SourceAudit.Proofs.Markup.Penalties
import SourceAudit.Proofs.Markup.Reported
import SourceAudit.Proofs.Markup.Rewriting
import SourceAudit.Proofs.Markup.Sought
import SourceAudit.Proofs.Markup.Tags
import SourceAudit.Proofs.Markup.Unsought
import SourceAudit.Proofs.Pattern.Back
import SourceAudit.Proofs.Pattern.Edits
import SourceAudit.Proofs.Pattern.First
import SourceAudit.Proofs.Pattern.Front
import SourceAudit.Proofs.Pattern.Gaps
import SourceAudit.Proofs.Pattern.Ink
import SourceAudit.Proofs.Pattern.Likeness
import SourceAudit.Proofs.Pattern.LineEnd
import SourceAudit.Proofs.Pattern.Places
import SourceAudit.Proofs.Pattern.Spelling
import SourceAudit.Proofs.Pattern.Stretch
import SourceAudit.Proofs.Pattern.WordSwap
import SourceAudit.Proofs.Report.Autofix
import SourceAudit.Proofs.Report.Evaluation
import SourceAudit.Proofs.Report.FamilyGravity
import SourceAudit.Proofs.Report.Gravity
import SourceAudit.Proofs.Report.Lines
import SourceAudit.Proofs.Report.Mentions
import SourceAudit.Proofs.Report.Outcomes
import SourceAudit.Proofs.Report.Project
import SourceAudit.Proofs.Report.Verdict
import SourceAudit.Proofs.Source.Names
import SourceAudit.Proofs.Text.BlankCase
import SourceAudit.Proofs.Text.Bytes
import SourceAudit.Proofs.Text.Depth
import SourceAudit.Proofs.Text.LastCut
import SourceAudit.Proofs.Text.LineBytes
import SourceAudit.Proofs.Text.LineEnd
import SourceAudit.Proofs.Text.LineNumber
import SourceAudit.Proofs.Text.LineTrim
import SourceAudit.Proofs.Text.LowerCase
import SourceAudit.Proofs.Text.Needle
import SourceAudit.Proofs.Text.Tokens
import SourceAudit.Proofs.Text.Trim
import SourceAudit.Proofs.Text.WholeWord
import SourceAudit.Proofs.Text.WordChar
import SourceAudit.Proofs.Text.Words
import SourceAudit.Repetition
import SourceAudit.Report.File
import SourceAudit.Report.Languages
import SourceAudit.Report.Markdown
import SourceAudit.Report.PageSpeed
import SourceAudit.Report.Project
import SourceAudit.Rule.Backend
import SourceAudit.Rule.Basic
import SourceAudit.Rule.Html
import SourceAudit.Rule.Script
import SourceAudit.Rule.Universal
import SourceAudit.Service.Respond
import SourceAudit.Service.Route
import SourceAudit.Source.Basic
import SourceAudit.Source.ByName
import SourceAudit.Source.Language
import SourceAudit.Source.LineCount
import SourceAudit.Text.Basic
import SourceAudit.Text.Blank
import SourceAudit.Text.Case
import SourceAudit.Text.CaseTable
import SourceAudit.Text.CodeSet
import SourceAudit.Text.Line
import SourceAudit.Text.Quoted
import SourceAudit.Text.WholeWord
import SourceAudit.Text.WordChar
import SourceAudit.Total
