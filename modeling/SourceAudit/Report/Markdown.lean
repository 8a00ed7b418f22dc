/-
Module: SourceAudit.Report.Markdown
Layer: Presentation
Purpose: Reports as Markdown. Each report is a list of lines, and each line ends in a line feed.
Main exports: textOfLines, ProjectReport.markdown, Markup.Report.markdown, SpeedReport.markdown,
  Improvement.markdown
-/
import SourceAudit.Decimal.Fixed
import SourceAudit.Improve.Basic
import SourceAudit.Markup.Validate
import SourceAudit.Report.PageSpeed
import SourceAudit.Report.Project

namespace SourceAudit

/-- The text with these lines, each ended by a line feed. -/
def textOfLines (lines : List String) : String :=
  lines.foldl (fun done line => done ++ line ++ "\n") ""

/-- The heading word for a kind of issue. -/
def IssueKind.title : IssueKind → String
  | .error => "Error"
  | .warning => "Warning"
  | .info => "Info"

/-- The heading word for an impact. -/
def Impact.title : Impact → String
  | .low => "Low"
  | .medium => "Medium"
  | .high => "High"

/-- The share of a language, to two places. -/
def shareLine (share : String × Float) : String :=
  s!"- {share.1}: {Decimal.fixedText 2 share.2}%"

namespace Markdown

/-- The languages of a project, the greatest share first. -/
def languages (shares : LanguageShares) : List String :=
  if shares.isEmpty then ["### Languages", "No languages detected.", ""]
  else ["### Languages"] ++ shares.byShare.map shareLine ++ [""]

/-- The deep analysis of a file: its score and the cycles it lies on. -/
def deepLines (deep : DeepAnalysis) : List String :=
  let cycles :=
    match deep.dependencies with
    | some dependencies => dependencies.cycles.map fun cycle => s!"- {cycle.message}"
    | none => []
  s!"- Deep analysis score: {deep.overallScore}/100" :: cycles

/-- An issue with its code. -/
def issueLine (i : Issue) : String :=
  s!"- [{i.kind.title}] line {i.line}: {i.message} (`{i.code}`)"

/-- A suggestion, marked when a rule settles it. -/
def suggestionLine (s : Suggestion) : String :=
  s!"- {s.category}: {s.message}" ++ if s.autoFix then " (auto-fix)" else ""

/-- The section on a file. -/
def fileSection (f : FileReport) : List String :=
  [s!"## {f.fileName}", "",
    s!"- Score: {f.qualityScore}/100 ({f.errorCount} errors, {f.warningCount} warnings, {f.infoCount} info)"] ++
  (f.language.toList.map fun language => s!"- Language: {language}") ++
  f.deepAnalysis.toList.flatMap deepLines ++ [""] ++
  (if f.issues.isEmpty then ["### Issues", "No issues found.", ""]
    else ["### Issues"] ++ f.issues.map issueLine ++ [""]) ++
  (if f.suggestions.isEmpty then []
    else ["### Suggestions"] ++ f.suggestions.map suggestionLine ++ [""])

/-- The findings of a validation under a heading. -/
def findings (title : String) (found : List Markup.Finding) : List String :=
  if found.isEmpty then [s!"### {title}", "None.", ""]
  else
    [s!"### {title}"] ++
      (found.map fun f => s!"- line {f.line} [{f.category}] {f.message}: {f.suggestion}") ++ [""]

/-- A changed line as it is shown in a diff. -/
def diffLines (row : LineComparison) : List String :=
  match row.changeType with
  | .added => [s!"+ {row.after}"]
  | .removed => [s!"- {row.before}"]
  | .modified => [s!"- {row.before}", s!"+ {row.after}"]
  | .unchanged => []

/-- The rows that differ, as a diff. -/
def changes (rows : List LineComparison) : List String :=
  ["### Changes", "```diff"] ++ (rows.filter LineComparison.isDifferent).flatMap diffLines ++
    ["```", ""]

end Markdown

/-- The report on a project. -/
def ProjectReport.markdown (r : ProjectReport) : String :=
  textOfLines <|
    ["# CodeGuard Analysis Report", "",
      s!"- Files: {r.totalFiles}",
      s!"- Status: {r.summary.status.name}",
      s!"- Average quality score: {r.summary.averageQualityScore}/100",
      s!"- Errors: {r.summary.totalErrors}",
      s!"- Warnings: {r.summary.totalWarnings}",
      s!"- Lines: {r.summary.totalLines}", ""] ++
    Markdown.languages r.summary.languageStats ++ r.files.flatMap Markdown.fileSection

/-- The report on the validation of a document. -/
def Markup.Report.markdown (r : Markup.Report) : String :=
  textOfLines <|
    [s!"# {r.validator} Report: {r.fileName}", "",
      s!"- Score: {r.score}/100",
      s!"- {r.summary.message}", ""] ++
    Markdown.findings "Errors" r.errors ++ Markdown.findings "Warnings" r.warnings ++
    Markdown.findings "Suggestions" r.suggestions

/-- The page-speed report on a file. -/
def SpeedReport.markdown (r : SpeedReport) (fileName : String) : String :=
  textOfLines <|
    [s!"# Page Speed Report: {fileName}", "",
      s!"- Desktop score: {r.desktopScore}/100",
      s!"- Mobile score: {r.mobileScore}/100", "",
      "### Simulated metrics",
      s!"- LCP: {Decimal.fixedText 2 r.metrics.lcp}s",
      s!"- TBT: {Decimal.plainText r.metrics.tbt}ms",
      s!"- CLS: {Decimal.fixedText 2 r.metrics.cls}",
      s!"- Speed Index: {Decimal.fixedText 2 r.metrics.speedIndex}s", "",
      "### Opportunities"] ++
    if r.issues.isEmpty then ["No issues found.", ""]
    else (r.issues.map fun i => s!"- [{i.impact.title}] {i.title}: {i.description}") ++ [""]

/-- The report on the improvement of a file, with the changed lines when they are given. -/
def Improvement.markdown (r : Improvement) (fileName : String)
    (comparison : Option (List LineComparison)) : String :=
  let m := r.metrics
  textOfLines <|
    [s!"# Code Improvement: {fileName}", "",
      s!"- Lines changed: {m.linesChanged}",
      s!"- Console calls removed: {m.consolesRemoved}",
      s!"- `var` declarations replaced: {m.varsReplaced}",
      s!"- Size: {m.sizeBefore} -> {m.sizeAfter} chars ({Decimal.plainText m.sizeReductionPercent}%)",
      "", "### Applied fixes"] ++
    (if r.appliedFixes.isEmpty then ["No fixes applied."]
      else r.appliedFixes.map fun f => s!"- [{f.fixKind.id}] {f.message}") ++ [""] ++
    (if r.skippedFixes.isEmpty then []
      else ["### Skipped fixes"] ++ (r.skippedFixes.map fun f => s!"- {f.message} ({f.reason})") ++
        [""]) ++
    comparison.toList.flatMap Markdown.changes

end SourceAudit
