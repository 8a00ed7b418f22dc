/-
Module: SourceAudit.Report.File
Layer: Analysis
Purpose: The report on one file: the rules of its family are run after the universal ones, their
  issues are counted and scored, and their suggestions are kept once each.
Main exports: FileReport, penalty, wordScore, analyzeFile
-/
import SourceAudit.Deep.Finding
import SourceAudit.Repetition
import SourceAudit.Rule.Backend
import SourceAudit.Rule.Html
import SourceAudit.Rule.Script
import SourceAudit.Rule.Universal
import SourceAudit.Source.Language
import SourceAudit.Total

namespace SourceAudit

/-- The report on one file. -/
structure FileReport where
  fileName : String
  fileType : String
  /-- The number of lines. -/
  lines : Nat
  /-- The number of characters. -/
  size : Nat
  issues : List Issue
  suggestions : List Suggestion
  errorCount : Nat
  warningCount : Nat
  infoCount : Nat
  qualityScore : UInt8
  /-- The beginning of the text. -/
  contentPreview : String
  language : Option String
  deepAnalysis : Option DeepAnalysis
deriving DecidableEq, Repr

/-- The rules of a family, beside the universal ones. -/
def Family.rules [Engine] : Family → List Rule
  | .html => Html.rules
  | .script => Script.rules
  | .python => Python.rules
  | .php => Php.rules
  | .solidity => Solidity.rules
  | .vue => Vue.rules
  | .other => []

/-- Fifteen points for each error, five for each warning and two for each note. -/
def penalty (errors warnings infos : Nat) : Nat := 15 * errors + 5 * warnings + 2 * infos

/-- What the penalty leaves of a hundred. The counts are words of 64 bits and so is the penalty: one
    that does not fit starts again at zero. -/
def wordScore (errors warnings infos : Nat) : UInt8 :=
  UInt8.ofNat (100 - penalty errors warnings infos % wordSize)

/-- How many characters of the text a report shows. -/
def previewChars : Nat := 500

/-- The issues among outcomes. -/
def issuesOf (outcomes : List Outcome) : List Issue :=
  outcomes.filterMap fun
    | .issue i => some i
    | .suggestion _ => none

/-- The suggestions among outcomes. -/
def suggestionsOf (outcomes : List Outcome) : List Suggestion :=
  outcomes.filterMap fun
    | .issue _ => none
    | .suggestion s => some s

/-- The number of issues of a kind. -/
def countKind (kind : IssueKind) (issues : List Issue) : Nat := issues.countP (·.kind == kind)

/-- The report on a file. -/
def analyzeFile [Engine] (fileName content fileType : String) : FileReport :=
  let text := Text.of content
  let file := SourceView.ofFile fileName text
  let outcomes := Rule.outcomes (Universal.rules ++ (Family.ofName fileName).rules) file
  let issues := issuesOf outcomes
  let errors := countKind .error issues
  let warnings := countKind .warning issues
  let infos := countKind .info issues
  { fileName
    fileType
    lines := file.lines.length
    size := text.length
    issues
    suggestions := keepOnce (suggestionsOf outcomes)
    errorCount := errors
    warningCount := warnings
    infoCount := infos
    qualityScore := wordScore errors warnings infos
    contentPreview := (text.truncate previewChars).str
    language := (Language.ofName? fileName).map Language.name
    deepAnalysis := none }

end SourceAudit
